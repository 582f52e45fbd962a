import HarnessSdk.Knowledge.Metering

/-! The worklist fires the rules of the synchronous rounds, in the same rounds and order. -/
namespace Knowledge
open PyDict PyText Checks Workflow Metered

/-! The index of the rules. -/

def Filled (support : Support) : Prop :=
  ∀ atom supports, get? support.witnesses atom = some supports → supports ≠ []

variable {support : Support}

theorem Filled.record (filled : Filled support) (witness : SupportWitness) :
    Filled (support.record witness) :=
  every_set filled (by simp)

theorem Filled.cite (filled : Filled support) (anchor : Anchor) : Filled (support.cite anchor) := by
  unfold Support.cite
  split
  · exact filled
  · exact filled

theorem filled_seeded (anchors : List Anchor) : Filled (seeded anchors) := by
  have start : Filled Support.none := by
    intro atom supports found
    simp [Support.none] at found
  have grows : ∀ (admitted : List Anchor) (support : Support), Filled support →
      Filled (admitted.foldl Support.admitAnchor support) := by
    intro admitted
    induction admitted with
    | nil => exact fun _ filled => filled
    | cons anchor rest ih =>
      intro support filled
      exact ih _ ((filled.record _).cite anchor)
  exact grows _ _ start

theorem Filled.recordFired {contentHashOf : Json → String} (filled : Filled support)
    (log : List Fired) : Filled (log.foldl (recordFired contentHashOf) support) := by
  induction log generalizing support with
  | nil => exact filled
  | cons fired rest ih => exact ih (filled.record _)

theorem Filled.isNone_iff (filled : Filled support) (atom : Atom) :
    (get? support.witnesses atom).isNone = true ↔ support.witnessesFor atom = [] := by
  unfold Support.witnessesFor
  cases found : get? support.witnesses atom with
  | none => simp
  | some supports => simpa using filled atom supports found

/-- What does not change in the rounds: the evidence and the conditions of a rule. -/
def Usable (excluded : List String) (state : AssumptionState) (support : Support)
    (entry : JustificationSet) : Prop :=
  ((∀ ref, .evidence ref ∈ entry.premises → ref ∈ support.evidenceRefs) ∧
    ∀ condition ∈ entry.conditions, get? state condition.name = some true) ∧
  entry.atom.key ∉ excluded

def Lacks (support : Support) (entry : JustificationSet) (atom : Atom) : Prop :=
  atom ∈ propositionAtoms entry.premises ∧ support.witnessesFor atom = []

variable {entry : JustificationSet}

theorem satisfies_isSome {excluded : List String} {state : AssumptionState}
    (kept : entry.atom.key ∉ excluded) :
    (support.satisfies state entry).isSome = true ↔
      Usable excluded state support entry ∧ ∀ atom, ¬ Lacks support entry atom := by
  rw [Option.isSome_iff_exists]
  constructor
  · rintro ⟨⟨depth, used⟩, held⟩
    obtain ⟨usable, atoms, _⟩ := (satisfies_eq_some _ _ _ _ _).mp held
    exact ⟨⟨usable, kept⟩, fun atom lacks => atoms atom lacks.1 lacks.2⟩
  · rintro ⟨⟨usable, _⟩, atoms⟩
    refine ⟨(_, _), (satisfies_eq_some _ _ _ _ _).mpr ⟨usable, ?_, rfl, rfl⟩⟩
    intro atom inside empty
    exact atoms atom ⟨inside, empty⟩

section
variable {bounds : Bounds}

variable {support : Support}

theorem scanPremise_only (filled : Filled support) (scan : List Atom × Bool) (premise : Premise) :
    Only caught (scanPremise bounds support scan premise) fun out =>
      (scan.1.Nodup → out.1.Nodup) ∧
      (∀ a, a ∈ out.1 ↔ a ∈ scan.1 ∨ .proposition a = premise ∧ support.witnessesFor a = []) ∧
      (out.2 = true ↔ scan.2 = true ∧ ∀ ref, .evidence ref = premise →
        ref ∈ support.evidenceRefs) := by
  apply only_bind (check_only 1)
  intro _ _
  cases premise with
  | evidence ref =>
    apply only_pure
    refine ⟨id, by simp, ?_⟩
    simp
  | proposition atom =>
    apply only_bind (literal_only atom)
    intro _ _
    have missing := filled.isNone_iff atom
    by_cases absent : (get? support.witnesses atom).isNone = true
    · rw [if_pos absent]
      apply only_pure
      refine ⟨fun nodup => addTo_nodup nodup atom, fun a => ?_, by simp⟩
      rw [mem_addTo]
      apply or_congr Iff.rfl
      constructor
      · rintro rfl
        exact ⟨rfl, missing.mp absent⟩
      · rintro ⟨same, _⟩
        cases same
        rfl
    · rw [if_neg absent]
      apply only_pure
      refine ⟨id, fun a => ?_, by simp⟩
      constructor
      · exact Or.inl
      · rintro (old | ⟨same, empty⟩)
        · exact old
        · cases same
          exact absurd (missing.mpr empty) absent

theorem scan_only (filled : Filled support) (premises : List Premise) :
    Only caught (premises.foldlM (scanPremise bounds support) ([], true)) fun scan =>
      scan.1.Nodup ∧
      (∀ a, a ∈ scan.1 ↔ .proposition a ∈ premises ∧ support.witnessesFor a = []) ∧
      (scan.2 = true ↔ ∀ ref, .evidence ref ∈ premises → ref ∈ support.evidenceRefs) := by
  apply only_foldlM fun (done : List Premise) (scan : List Atom × Bool) => scan.1.Nodup ∧
    (∀ a, a ∈ scan.1 ↔ .proposition a ∈ done ∧ support.witnessesFor a = []) ∧
    (scan.2 = true ↔ ∀ ref, .evidence ref ∈ done → ref ∈ support.evidenceRefs)
  · simp
  · intro done premise rest scan _ ⟨nodup, atoms, refs⟩
    apply (scanPremise_only filled scan premise).mono
    rintro out ⟨keeps, grown, usable⟩
    refine ⟨keeps nodup, fun a => ?_, ?_⟩
    · rw [grown, atoms, List.mem_append, List.mem_singleton]
      tauto
    · rw [usable, refs]
      simp only [List.mem_append, List.mem_singleton]
      constructor
      · rintro ⟨before, now⟩ ref (old | new)
        · exact before ref old
        · exact now ref new
      · intro all
        exact ⟨fun ref old => all ref (Or.inl old), fun ref new => all ref (Or.inr new)⟩

theorem scanConditions_only (state : AssumptionState) (conditions : List RuleCondition)
    (start : Bool) :
    Only caught (conditions.foldlM (scanCondition bounds state) start) fun usable =>
      (usable = true ↔ start = true ∧
        ∀ condition ∈ conditions, get? state condition.name = some true) := by
  induction conditions generalizing start with
  | nil => exact only_pure (by simp)
  | cons condition rest ih =>
    have first : Only caught (scanCondition bounds state start condition) fun out =>
        (out = true ↔ start = true ∧ get? state condition.name = some true) := by
      apply only_bind (check_only 1)
      intro _ _
      exact only_pure (by simp [asserted])
    rw [List.foldlM_cons]
    apply only_bind first
    intro out held
    apply (ih out).mono
    intro usable all
    rw [all, held, List.forall_mem_cons, and_assoc]

theorem mem_propositionAtoms (premises : List Premise) (atom : Atom) :
    atom ∈ propositionAtoms premises ↔ .proposition atom ∈ premises := by
  unfold propositionAtoms
  rw [List.mem_filterMap]
  constructor
  · rintro ⟨premise, inside, same⟩
    cases premise with
    | proposition a =>
      cases same
      exact inside
    | evidence ref => cases same
  · intro inside
    exact ⟨_, inside, rfl⟩

theorem indexRule_only (filled : Filled support) (excluded : List String)
    (state : AssumptionState) (list : Worklist) (entry : JustificationSet) (position : Nat) :
    Only caught (indexRule bounds excluded state support list (entry, position)) fun out =>
      (¬ Usable excluded state support entry ∧ out = list) ∨
      (Usable excluded state support entry ∧ ∃ absent : List Atom, absent.Nodup ∧
        (∀ a, a ∈ absent ↔ Lacks support entry a) ∧
        out = ⟨absent.foldl (waitFor position) list.waiting, set list.missing position absent,
          if absent = [] then list.ready ++ [position] else list.ready⟩) := by
  apply only_bind (check_only 0)
  intro _ _
  apply only_bind (literal_only _)
  intro _ _
  apply only_bind (scan_only filled _)
  rintro scan ⟨nodup, atoms, refs⟩
  apply only_bind (scanConditions_only state _ scan.2)
  intro usable held
  have whole : (usable && decide (entry.atom.key ∉ excluded)) = true ↔
      Usable excluded state support entry := by
    rw [Bool.and_eq_true, decide_eq_true_eq, held, refs]
    rfl
  by_cases yes : (usable && decide (entry.atom.key ∉ excluded)) = true
  · rw [if_pos yes]
    apply only_pure
    refine Or.inr ⟨whole.mp yes, scan.1, nodup, fun a => ?_, rfl⟩
    rw [atoms, Lacks, mem_propositionAtoms]
  · rw [if_neg yes]
    exact only_pure (Or.inl ⟨fun is => yes (whole.mpr is), rfl⟩)

end

theorem get?_waitFor_all (position : Nat) {absent : List Atom} (nodup : absent.Nodup)
    (waiting : Dict Atom (List Nat)) (atom : Atom) :
    (get? (absent.foldl (waitFor position) waiting) atom).getD [] =
      (get? waiting atom).getD [] ++ if atom ∈ absent then [position] else [] := by
  induction absent generalizing waiting with
  | nil => simp
  | cons first rest ih =>
    rw [List.nodup_cons] at nodup
    rw [List.foldl_cons, ih nodup.2, waitFor, get?_set]
    by_cases same : first = atom
    · subst same
      simp [nodup.1]
    · simp [same, Ne.symm same]

abbrev Placed := JustificationSet × Nat

/-- The worklist agrees with the support and the rules that have not fired. -/
structure Synced (excluded : List String) (state : AssumptionState) (support : Support)
    (opens : List Placed) (list : Worklist) : Prop where
  missing : ∀ r ∈ opens, Usable excluded state support r.1 →
    ∃ absent, get? list.missing r.2 = some absent ∧ ∀ a, a ∈ absent ↔ Lacks support r.1 a
  readyNodup : list.ready.Nodup
  ready : ∀ p, p ∈ list.ready ↔ ∃ entry, (entry, p) ∈ opens ∧
    Usable excluded state support entry ∧ ∀ a, ¬ Lacks support entry a
  waitingNodup : ∀ a, ((get? list.waiting a).getD []).Nodup
  waiting : ∀ a, support.witnessesFor a = [] → ∀ p, p ∈ (get? list.waiting a).getD [] ↔
    ∃ entry, (entry, p) ∈ opens ∧ Usable excluded state support entry ∧ Lacks support entry a

section
variable {excluded : List String} {state : AssumptionState} {support : Support}
  {opens : List Placed} {list : Worklist}

theorem Synced.empty : Synced excluded state support [] ⟨[], [], []⟩ where
  missing := by simp
  readyNodup := List.nodup_nil
  ready := by simp
  waitingNodup := by simp
  waiting := by simp

section
variable (synced : Synced excluded state support opens list)
include synced

theorem Synced.congr {opens' : List Placed}
    (same : ∀ entry p, Usable excluded state support entry →
      ((entry, p) ∈ opens ↔ (entry, p) ∈ opens')) :
    Synced excluded state support opens' list := by
  refine ⟨?_, synced.readyNodup, ?_, synced.waitingNodup, ?_⟩
  · intro r inside usable
    exact synced.missing r ((same r.1 r.2 usable).mpr inside) usable
  · intro p
    rw [synced.ready]
    apply exists_congr
    intro entry
    rw [← and_assoc, ← and_assoc, and_congr_left_iff]
    exact fun _ => and_congr_left (same entry p)
  · intro a empty p
    rw [synced.waiting a empty]
    apply exists_congr
    intro entry
    rw [← and_assoc, ← and_assoc, and_congr_left_iff]
    exact fun _ => and_congr_left (same entry p)

theorem Synced.add {entry : JustificationSet}
    {position : Nat} (usable : Usable excluded state support entry)
    (fresh : ∀ r ∈ opens, r.2 ≠ position) {absent : List Atom} (nodup : absent.Nodup)
    (lacks : ∀ a, a ∈ absent ↔ Lacks support entry a) :
    Synced excluded state support (opens ++ [(entry, position)])
      ⟨absent.foldl (waitFor position) list.waiting, set list.missing position absent,
        if absent = [] then list.ready ++ [position] else list.ready⟩ := by
  have added : ∀ other p, (other, p) ∈ opens ++ [(entry, position)] ↔
      (other, p) ∈ opens ∨ other = entry ∧ p = position := by simp
  have none : absent = [] ↔ ∀ a, ¬ Lacks support entry a := by
    rw [List.eq_nil_iff_forall_not_mem]
    exact forall_congr' fun a => not_congr (lacks a)
  constructor
  case missing =>
    intro r inside usable'
    rcases List.mem_append.mp inside with old | new
    · rw [get?_set_ne _ _ (Ne.symm (fresh r old))]
      exact synced.missing r old usable'
    · rw [List.mem_singleton] at new
      subst new
      exact ⟨absent, get?_set_self _ _ _, lacks⟩
  case readyNodup =>
    by_cases empty : absent = []
    · rw [if_pos empty, List.nodup_append]
      refine ⟨synced.readyNodup, List.nodup_singleton _, ?_⟩
      intro p old q new same
      obtain ⟨other, inside, _⟩ := (synced.ready p).mp old
      rw [List.mem_singleton] at new
      exact fresh _ inside (same.trans new)
    · rw [if_neg empty]
      exact synced.readyNodup
  case ready =>
    intro p
    have old := synced.ready p
    by_cases empty : absent = []
    · have clear := none.mp empty
      rw [if_pos empty, List.mem_append, List.mem_singleton, old]
      constructor
      · rintro (⟨other, inside, rest⟩ | rfl)
        · exact ⟨other, (added _ _).mpr (Or.inl inside), rest⟩
        · exact ⟨entry, (added _ _).mpr (Or.inr ⟨rfl, rfl⟩), usable, clear⟩
      · rintro ⟨other, inside, rest⟩
        rcases (added _ _).mp inside with before | ⟨_, rfl⟩
        · exact Or.inl ⟨other, before, rest⟩
        · exact Or.inr rfl
    · rw [if_neg empty, old]
      constructor
      · rintro ⟨other, inside, rest⟩
        exact ⟨other, (added _ _).mpr (Or.inl inside), rest⟩
      · rintro ⟨other, inside, rest⟩
        rcases (added _ _).mp inside with before | ⟨rfl, _⟩
        · exact ⟨other, before, rest⟩
        · exact absurd (none.mpr rest.2) empty
  case waitingNodup =>
    intro a
    rw [get?_waitFor_all position nodup]
    by_cases waits : a ∈ absent
    · rw [if_pos waits, List.nodup_append]
      refine ⟨synced.waitingNodup a, List.nodup_singleton _, ?_⟩
      intro p old q new same
      obtain ⟨other, inside, _⟩ := (synced.waiting a ((lacks a).mp waits).2 p).mp old
      rw [List.mem_singleton] at new
      exact fresh _ inside (same.trans new)
    · rw [if_neg waits, List.append_nil]
      exact synced.waitingNodup a
  case waiting =>
    intro a unsupported p
    have here : p ∈ (if a ∈ absent then [position] else []) ↔ a ∈ absent ∧ p = position := by
      by_cases waits : a ∈ absent <;> simp [waits]
    rw [get?_waitFor_all position nodup, List.mem_append, synced.waiting a unsupported, here, lacks]
    constructor
    · rintro (⟨other, inside, rest⟩ | ⟨lacking, rfl⟩)
      · exact ⟨other, (added _ _).mpr (Or.inl inside), rest⟩
      · exact ⟨entry, (added _ _).mpr (Or.inr ⟨rfl, rfl⟩), usable, lacking⟩
    · rintro ⟨other, inside, rest⟩
      rcases (added _ _).mp inside with before | ⟨rfl, rfl⟩
      · exact Or.inl ⟨other, before, rest⟩
      · exact Or.inr ⟨rest.2, rfl⟩

end

theorem indexRules_only {bounds : Bounds} (filled : Filled support)
    (rules : List JustificationSet) :
    Only caught (rules.zipIdx.foldlM (indexRule bounds excluded state support) ⟨[], [], []⟩)
      (Synced excluded state support rules.zipIdx) := by
  apply only_foldlM fun (done : List Placed) list => Synced excluded state support done list
  · exact Synced.empty
  · rintro done ⟨entry, position⟩ rest list split synced
    have fresh : ∀ r ∈ done, r.2 ≠ position := by
      have positions : (rules.zipIdx.map Prod.snd).Nodup := by
        rw [List.zipIdx_map_snd]
        exact List.nodup_range'
      rw [split, List.map_append, List.map_cons, List.nodup_append] at positions
      intro r inside
      exact positions.2.2 _ (List.mem_map_of_mem inside) _ List.mem_cons_self
    apply (indexRule_only filled excluded state list entry position).mono
    rintro out (⟨unusable, rfl⟩ | ⟨usable, absent, nodup, lacks, rfl⟩)
    · apply synced.congr
      intro other p usable
      have differ : ¬ (other = entry ∧ p = position) := fun ⟨same, _⟩ =>
        unusable (same ▸ usable)
      simp [differ]
    · exact synced.add usable fresh nodup lacks

end

/-! One round. -/

variable {rules : List JustificationSet} {opens : List Placed}

theorem zipIdx_lookup (inside : opens.Sublist rules.zipIdx) {p : Nat} (open' : (entry, p) ∈ opens) :
    rules[p]? = some entry :=
  List.mem_zipIdx_iff_getElem?.mp (inside.subset open')

theorem zipIdx_positions_sorted (inside : opens.Sublist rules.zipIdx) :
    (opens.map Prod.snd).Pairwise (· < ·) := by
  apply List.Pairwise.sublist (inside.map Prod.snd)
  rw [List.zipIdx_map_snd]
  exact List.pairwise_lt_range'

section
variable {bounds : Bounds} {contentHashOf : Json → String} {rules : List JustificationSet}
  {excluded : List String} {state : AssumptionState} {support : Support} {opens : List Placed}
  {list : Worklist}

def Placed.holds (state : AssumptionState) (support : Support) (r : Placed) : Bool :=
  (support.satisfies state r.1).isSome

theorem ready_sorted (inside : opens.Sublist rules.zipIdx)
    (kept : ∀ r ∈ opens, r.1.atom.key ∉ excluded)
    (synced : Synced excluded state support opens list) :
    list.ready.insertionSort (· ≤ ·) = (opens.filter (Placed.holds state support)).map Prod.snd := by
  have ascending := zipIdx_positions_sorted
    ((List.filter_sublist (p := Placed.holds state support)).trans inside)
  have perm : list.ready.Perm ((opens.filter (Placed.holds state support)).map Prod.snd) := by
    apply (List.perm_ext_iff_of_nodup synced.readyNodup (ascending.imp Nat.ne_of_lt)).mpr
    intro p
    rw [synced.ready, List.mem_map]
    constructor
    · rintro ⟨entry, open', rest⟩
      refine ⟨(entry, p), List.mem_filter.mpr ⟨open', ?_⟩, rfl⟩
      exact (satisfies_isSome (kept _ open')).mpr rest
    · rintro ⟨⟨entry, q⟩, found, rfl⟩
      obtain ⟨open', holds⟩ := List.mem_filter.mp found
      exact ⟨entry, open', (satisfies_isSome (kept _ open')).mp holds⟩
  apply List.Perm.eq_of_pairwise' (List.pairwise_insertionSort _ _)
  · exact ascending.imp Nat.le_of_lt
  · exact (List.perm_insertionSort _ _).trans perm

theorem tryRules_yields (inside : ∀ r ∈ opens, rules[r.2]? = some r.1) :
    Yields caught (((opens.filter (Placed.holds state support)).map Prod.snd).mapM
      (tryRule bounds rules state support)) (firedIn state support (opens.map Prod.fst)) := by
  induction opens with
  | nil => exact yields_pure []
  | cons r rest ih =>
    have later := ih fun r' h => inside r' (List.mem_cons_of_mem r h)
    cases found : support.satisfies state r.1 with
    | none =>
      have idle : ¬ Placed.holds state support r = true := by simp [Placed.holds, found]
      have none' : firedIn state support ((r :: rest).map Prod.fst) =
          firedIn state support (rest.map Prod.fst) := by simp [firedIn, found]
      rw [List.filter_cons_of_neg idle, none']
      exact later
    | some held =>
      have fires : Placed.holds state support r = true := by simp [Placed.holds, found]
      have first : firedIn state support ((r :: rest).map Prod.fst) =
          (r.1, held) :: firedIn state support (rest.map Prod.fst) := by simp [firedIn, found]
      have here : Yields caught (tryRule bounds rules state support r.2) (r.1, held) := by
        unfold tryRule
        rw [inside r List.mem_cons_self]
        apply only_bind (check_only _)
        intro _ _
        rw [found]
        exact yields_pure _
      rw [List.filter_cons_of_pos fires, first, List.map_cons, List.mapM_cons]
      apply yields_bind here
      apply yields_bind later
      exact yields_pure _

theorem recordRules_only {budget : Nat} (fired : List Fired) (added : List Atom)
    (filled : Filled support) :
    Only caught (fired.foldlM (recordRule bounds contentHashOf budget) (support, added)) fun out =>
      fireAll contentHashOf budget fired support = (out.1, false) ∧
      (added.Nodup → out.2.Nodup) ∧
      ∀ a, a ∈ out.2 ↔ a ∈ added ∨ support.witnessesFor a = [] ∧ out.1.witnessesFor a ≠ [] := by
  induction fired generalizing support added with
  | nil =>
    apply only_pure
    refine ⟨rfl, id, fun a => ?_⟩
    simp
  | cons first rest ih =>
    obtain ⟨entry, depth, used⟩ := first
    rw [List.foldlM_cons]
    have step : Only caught (recordRule bounds contentHashOf budget (support, added)
        (entry, depth, used)) fun out =>
        out = (support.record (entry.witness contentHashOf depth used),
          if (get? support.witnesses entry.atom).isNone then addTo added entry.atom else added) ∧
        ¬ budget ≤ support.nodes := by
      apply only_bind (check_only 0)
      intro _ _
      apply only_bind (admitNode_only budget support _)
      rintro _ ⟨rfl, room⟩
      exact only_pure ⟨rfl, room⟩
    apply only_bind step
    rintro _ ⟨rfl, room⟩
    apply (ih _ (filled.record _)).mono
    rintro out ⟨fires, nodup, members⟩
    refine ⟨?_, ?_, fun a => ?_⟩
    · rw [fireAll, if_neg room]
      exact fires
    · intro before
      apply nodup
      split
      · exact addTo_nodup before _
      · exact before
    · have later : support.witnessesFor a ≠ [] ∨ entry.atom = a → out.1.witnessesFor a ≠ [] := by
        intro grown
        rw [fireAll_eq fires, witnessesFor_recordFired, witnessesFor_record]
        rcases grown with old | new
        · simp [old]
        · simp [new, JustificationSet.witness]
      have here : a ∈ (if (get? support.witnesses entry.atom).isNone then addTo added entry.atom
          else added) ↔ a ∈ added ∨ a = entry.atom ∧ support.witnessesFor a = [] := by
        have missing := filled.isNone_iff entry.atom
        by_cases absent : (get? support.witnesses entry.atom).isNone = true
        · rw [if_pos absent, mem_addTo]
          apply or_congr Iff.rfl
          constructor
          · rintro rfl
            exact ⟨rfl, missing.mp absent⟩
          · exact And.left
        · rw [if_neg absent]
          constructor
          · exact Or.inl
          · rintro (old | ⟨rfl, empty⟩)
            · exact old
            · exact absurd (missing.mpr empty) absent
      rw [members, here, witnessesFor_record]
      by_cases same : entry.atom = a
      · subst same
        have now := later (Or.inr rfl)
        simp [JustificationSet.witness, now]
      · simp [JustificationSet.witness, same, Ne.symm same]

end

/-! Between two rounds the atoms that were reached release the rules that wait for them. -/

/-- `released a p` says that the rule at `p` no longer waits for `a`. -/
structure Releasing (excluded : List String) (state : AssumptionState) (support : Support)
    (opens : List Placed) (released : Atom → Nat → Prop) (list : Worklist) : Prop where
  missing : ∀ r ∈ opens, Usable excluded state support r.1 →
    ∃ absent, get? list.missing r.2 = some absent ∧
      ∀ a, a ∈ absent ↔ Lacks support r.1 a ∧ ¬ released a r.2
  readyNodup : list.ready.Nodup
  ready : ∀ p, p ∈ list.ready ↔ ∃ entry, (entry, p) ∈ opens ∧
    Usable excluded state support entry ∧ ∀ a, Lacks support entry a → released a p

section
variable {bounds : Bounds} {rules : List JustificationSet} {excluded : List String}
  {state : AssumptionState} {support : Support} {opens : List Placed} {list : Worklist}
  {released : Atom → Nat → Prop}

theorem Releasing.congr {released' : Atom → Nat → Prop}
    (releasing : Releasing excluded state support opens released list)
    (same : ∀ a p, released a p ↔ released' a p) :
    Releasing excluded state support opens released' list := by
  have equal : released = released' := by
    funext a p
    exact propext (same a p)
  exact equal ▸ releasing

variable {entry : JustificationSet} {atoms : List Atom}

theorem releaseRule_only (inside : opens.Sublist rules.zipIdx)
    (releasing : Releasing excluded state support opens released list) {position : Nat}
    {atom : Atom} (open' : (entry, position) ∈ opens)
    (usable : Usable excluded state support entry) (lacks : Lacks support entry atom)
    (held : ¬ released atom position) :
    Only caught (releaseRule bounds atom list position) fun out =>
      Releasing excluded state support opens
        (fun a p => released a p ∨ a = atom ∧ p = position) out ∧ out.waiting = list.waiting := by
  obtain ⟨absent, found, members⟩ := releasing.missing _ open' usable
  have unique : ∀ other, (other, position) ∈ opens → other = entry := by
    intro other also
    have first := zipIdx_lookup inside also
    rw [zipIdx_lookup inside open', Option.some.injEq] at first
    exact first.symm
  have left : ∀ a, a ∈ absent.filter (· ≠ atom) ↔
      Lacks support entry a ∧ ¬ (released a position ∨ a = atom) := by
    intro a
    rw [List.mem_filter, members, decide_eq_true_eq, not_or, and_assoc]
  have done : absent.filter (· ≠ atom) = [] ↔
      ∀ a, Lacks support entry a → released a position ∨ a = atom := by
    rw [List.eq_nil_iff_forall_not_mem]
    apply forall_congr'
    intro a
    rw [left, not_and, not_not]
  have waiting : position ∉ list.ready := by
    rw [releasing.ready]
    rintro ⟨other, also, _, all⟩
    rw [unique other also] at all
    exact held (all atom lacks)
  apply only_bind (check_only 1)
  intro _ _
  rw [found]
  simp only [(members atom).mpr ⟨lacks, held⟩, if_true]
  apply only_pure
  refine ⟨⟨?_, ?_, ?_⟩, rfl⟩
  · intro r also usable'
    by_cases here : r.2 = position
    · obtain ⟨other, p⟩ := r
      subst here
      rw [unique other also]
      refine ⟨_, get?_set_self _ _ _, fun a => ?_⟩
      rw [left]
      simp
    · obtain ⟨absent', found', members'⟩ := releasing.missing r also usable'
      rw [get?_set_ne _ _ (Ne.symm here)]
      refine ⟨absent', found', fun a => ?_⟩
      simp [members', here]
  · by_cases empty : absent.filter (· ≠ atom) = []
    · rw [if_pos empty, List.nodup_append]
      refine ⟨releasing.readyNodup, List.nodup_singleton _, ?_⟩
      intro p old q new same
      rw [List.mem_singleton] at new
      exact waiting (new ▸ same ▸ old)
    · rw [if_neg empty]
      exact releasing.readyNodup
  · intro p
    by_cases here : p = position
    · subst here
      have now : (∃ other, (other, p) ∈ opens ∧ Usable excluded state support other ∧
          ∀ a, Lacks support other a → released a p ∨ a = atom ∧ p = p) ↔
          absent.filter (· ≠ atom) = [] := by
        rw [done]
        constructor
        · rintro ⟨other, also, _, all⟩ a lacking
          rw [unique other also] at all
          exact (all a lacking).imp_right And.left
        · intro all
          exact ⟨entry, open', usable, fun a lacking => (all a lacking).imp_right fun h => ⟨h, rfl⟩⟩
      rw [now]
      by_cases empty : absent.filter (· ≠ atom) = []
      · rw [if_pos empty]
        exact iff_of_true (by simp) empty
      · rw [if_neg empty]
        exact iff_of_false waiting empty
    · have before : p ∈ (if absent.filter (· ≠ atom) = [] then list.ready ++ [position]
          else list.ready) ↔ p ∈ list.ready := by
        split <;> simp [here]
      rw [before, releasing.ready]
      simp [here]

theorem releaseAtom_only (inside : opens.Sublist rules.zipIdx)
    (releasing : Releasing excluded state support opens released list) {atom : Atom}
    (nodup : ((get? list.waiting atom).getD []).Nodup)
    (waits : ∀ p ∈ (get? list.waiting atom).getD [], ∃ entry, (entry, p) ∈ opens ∧
      Usable excluded state support entry ∧ Lacks support entry atom)
    (held : ∀ p, ¬ released atom p) :
    Only caught (releaseAtom bounds list atom) fun out =>
      Releasing excluded state support opens
        (fun a p => released a p ∨ a = atom ∧ p ∈ (get? list.waiting atom).getD []) out ∧
      out.waiting = list.waiting.filter (·.1 ≠ atom) := by
  apply only_foldlM fun (done : List Nat) (out : Worklist) =>
    Releasing excluded state support opens (fun a p => released a p ∨ a = atom ∧ p ∈ done) out ∧
      out.waiting = list.waiting.filter (·.1 ≠ atom)
  · refine ⟨?_, rfl⟩
    have start : Releasing excluded state support opens released
        { list with waiting := list.waiting.filter (·.1 ≠ atom) } :=
      ⟨releasing.missing, releasing.readyNodup, releasing.ready⟩
    exact start.congr (by simp)
  · rintro done position rest out split ⟨now, same⟩
    rw [split] at nodup waits
    obtain ⟨entry, open', usable, lacks⟩ := waits position (by simp)
    have fresh : ¬ (released atom position ∨ atom = atom ∧ position ∈ done) := by
      rintro (old | ⟨_, new⟩)
      · exact held position old
      · exact (List.nodup_append.mp nodup).2.2 _ new _ List.mem_cons_self rfl
    apply (releaseRule_only inside now open' usable lacks fresh).mono
    rintro out' ⟨after, kept⟩
    refine ⟨after.congr fun a p => ?_, kept.trans same⟩
    simp only [List.mem_append, List.mem_singleton]
    tauto

def Placed.left (state : AssumptionState) (support : Support) (opens : List Placed) : List Placed :=
  opens.filter fun r => (support.satisfies state r.1).isNone

theorem mem_left {p : Nat} (kept : ∀ r ∈ opens, r.1.atom.key ∉ excluded) :
    (entry, p) ∈ Placed.left state support opens ↔ (entry, p) ∈ opens ∧
      ¬ (Usable excluded state support entry ∧ ∀ a, ¬ Lacks support entry a) := by
  rw [Placed.left, List.mem_filter]
  apply and_congr_right
  intro open'
  rw [← satisfies_isSome (kept _ open'), Bool.not_eq_true, Option.isSome_eq_false_iff]

theorem releaseAtoms_only (inside : opens.Sublist rules.zipIdx)
    (kept : ∀ r ∈ opens, r.1.atom.key ∉ excluded)
    (synced : Synced excluded state support opens list) (nodup : atoms.Nodup)
    (unsupported : ∀ a ∈ atoms, support.witnessesFor a = []) :
    Only caught (atoms.foldlM (releaseAtom bounds) { list with ready := [] }) fun out =>
      Releasing excluded state support (Placed.left state support opens)
        (fun a p => a ∈ atoms ∧ p ∈ (get? list.waiting a).getD []) out ∧
      ∀ a, (get? out.waiting a).getD [] =
        if a ∈ atoms then [] else (get? list.waiting a).getD [] := by
  apply only_foldlM fun (done : List Atom) (out : Worklist) =>
    Releasing excluded state support (Placed.left state support opens)
      (fun a p => a ∈ done ∧ p ∈ (get? list.waiting a).getD []) out ∧
    ∀ a, (get? out.waiting a).getD [] = if a ∈ done then [] else (get? list.waiting a).getD []
  · refine ⟨⟨?_, List.nodup_nil, ?_⟩, by simp⟩
    · intro r left usable
      obtain ⟨absent, found, members⟩ := synced.missing r (List.mem_of_mem_filter left) usable
      exact ⟨absent, found, by simp [members]⟩
    · intro p
      simp only [List.not_mem_nil, false_and, imp_false, false_iff]
      rintro ⟨entry, left, ready⟩
      exact ((mem_left kept).mp left).2 ready
  · rintro done atom rest out split ⟨releasing, waiting⟩
    have fresh : atom ∉ done := by
      rw [split] at nodup
      intro old
      exact (List.nodup_append.mp nodup).2.2 _ old _ List.mem_cons_self rfl
    have empty := unsupported atom (by rw [split]; simp)
    have here : (get? out.waiting atom).getD [] = (get? list.waiting atom).getD [] := by
      rw [waiting, if_neg fresh]
    have waits : ∀ p ∈ (get? out.waiting atom).getD [],
        ∃ entry, (entry, p) ∈ Placed.left state support opens ∧
          Usable excluded state support entry ∧ Lacks support entry atom := by
      intro p waits
      rw [here] at waits
      obtain ⟨entry, open', usable, lacks⟩ := (synced.waiting atom empty p).mp waits
      exact ⟨entry, (mem_left kept).mpr ⟨open', fun all => all.2 atom lacks⟩, usable, lacks⟩
    have once : ((get? out.waiting atom).getD []).Nodup := by
      rw [here]
      exact synced.waitingNodup atom
    apply (releaseAtom_only (List.filter_sublist.trans inside) releasing once waits
      fun p old => fresh old.1).mono
    rintro out' ⟨after, erased⟩
    constructor
    · apply after.congr
      intro a p
      rw [here, List.mem_append, List.mem_singleton]
      constructor
      · rintro (⟨old, listed⟩ | ⟨rfl, listed⟩)
        · exact ⟨Or.inl old, listed⟩
        · exact ⟨Or.inr rfl, listed⟩
      · rintro ⟨old | rfl, listed⟩
        · exact Or.inl ⟨old, listed⟩
        · exact Or.inr ⟨rfl, listed⟩
    · intro a
      rw [erased, get?_erase]
      by_cases same : a = atom
      · simp [same]
      · simp [same, waiting a]

section
variable (kept : ∀ r ∈ opens, r.1.atom.key ∉ excluded)
include kept

/-- When every atom of the round has released its rules the worklist agrees with the new support. -/
theorem Synced.next {support' : Support} {out : Worklist}
    (synced : Synced excluded state support opens list)
    (refs : support'.evidenceRefs = support.evidenceRefs)
    (grows : ∀ a, support.witnessesFor a ≠ [] → support'.witnessesFor a ≠ [])
    (reached : ∀ a, a ∈ atoms ↔ support.witnessesFor a = [] ∧ support'.witnessesFor a ≠ [])
    (releasing : Releasing excluded state support (Placed.left state support opens) (fun a p => a
      ∈ atoms ∧ p ∈ (get? list.waiting a).getD []) out)
    (waiting : ∀ a, (get? out.waiting a).getD [] = if a ∈ atoms then [] else (get? list.waiting
      a).getD []) : Synced excluded state support' (Placed.left state support opens) out := by
  have usable : ∀ entry, Usable excluded state support' entry ↔
      Usable excluded state support entry := by
    intro entry
    rw [Usable, Usable, refs]
  have lacks : ∀ entry a, Lacks support' entry a ↔ Lacks support entry a ∧ a ∉ atoms := by
    intro entry a
    have empty : support'.witnessesFor a = [] ↔ support.witnessesFor a = [] ∧ a ∉ atoms := by
      have := grows a
      have := reached a
      tauto
    rw [Lacks, Lacks, empty, and_assoc]
  have waits : ∀ r ∈ Placed.left state support opens, Usable excluded state support r.1 →
      ∀ a, Lacks support r.1 a → r.2 ∈ (get? list.waiting a).getD [] := by
    intro r left use a lacking
    rw [synced.waiting a lacking.2]
    exact ⟨r.1, List.mem_of_mem_filter left, use, lacking⟩
  constructor
  case missing =>
    intro r left use
    rw [usable] at use
    obtain ⟨absent, found, members⟩ := releasing.missing r left use
    refine ⟨absent, found, fun a => ?_⟩
    rw [members, lacks]
    apply and_congr_right
    intro lacking
    rw [and_iff_left (waits r left use a lacking)]
  case readyNodup => exact releasing.readyNodup
  case ready =>
    intro p
    rw [releasing.ready]
    apply exists_congr
    intro entry
    rw [usable]
    apply and_congr_right
    intro left
    apply and_congr_right
    intro use
    apply forall_congr'
    intro a
    rw [lacks, not_and, not_not]
    apply imp_congr_right
    intro lacking
    rw [and_iff_left (waits (entry, p) left use a lacking)]
  case waitingNodup =>
    intro a
    rw [waiting]
    split
    · exact List.nodup_nil
    · exact synced.waitingNodup a
  case waiting =>
    intro a empty p
    have old : a ∉ atoms := fun new => ((reached a).mp new).2 empty
    have before : support.witnessesFor a = [] := not_not.mp fun some => grows a some empty
    rw [waiting, if_neg old, synced.waiting a before]
    apply exists_congr
    intro entry
    rw [usable, lacks, and_iff_left old, mem_left kept]
    constructor
    · rintro ⟨open', use, lacking⟩
      exact ⟨⟨open', fun all => all.2 a lacking⟩, use, lacking⟩
    · rintro ⟨⟨open', _⟩, use, lacking⟩
      exact ⟨open', use, lacking⟩

theorem firedIn_eq_nil
    (synced : Synced excluded state support opens list) :
    firedIn state support (opens.map Prod.fst) = [] ↔ list.ready = [] := by
  rw [List.eq_nil_iff_forall_not_mem, List.eq_nil_iff_forall_not_mem]
  constructor
  · intro quiet p ready
    obtain ⟨entry, open', holds⟩ := (synced.ready p).mp ready
    obtain ⟨held, found⟩ := Option.isSome_iff_exists.mp ((satisfies_isSome (kept _ open')).mpr holds)
    exact quiet (entry, held) (mem_firedIn.mpr ⟨List.mem_map_of_mem open', found⟩)
  · intro idle fired inside
    obtain ⟨waiting, held⟩ := mem_firedIn.mp inside
    obtain ⟨⟨_, p⟩, open', rfl⟩ := List.mem_map.mp waiting
    apply idle p
    rw [synced.ready]
    refine ⟨fired.1, open', (satisfies_isSome (kept _ open')).mp ?_⟩
    rw [held]
    rfl

end

theorem boundedRounds_only {contentHashOf : Json → String} {budget fuel : Nat}
    (inside : opens.Sublist rules.zipIdx) (kept : ∀ r ∈ opens, r.1.atom.key ∉ excluded)
    (filled : Filled support) (synced : Synced excluded state support opens list) :
    Only caught (boundedRounds bounds contentHashOf budget rules state fuel list support) fun out =>
      rounds contentHashOf budget state fuel (opens.map Prod.fst) support = (out, false) := by
  induction fuel generalizing opens list support with
  | zero => exact only_pure rfl
  | succ fuel ih =>
    have quiet := firedIn_eq_nil kept synced
    rw [boundedRounds, rounds]
    by_cases idle : list.ready = []
    · simp only [idle, quiet.mpr idle, List.isEmpty_nil, if_true]
      exact only_pure rfl
    · have busy : ¬ (list.ready.isEmpty = true) := by simpa using idle
      have some' : ¬ ((firedIn state support (opens.map Prod.fst)).isEmpty = true) := by
        rw [List.isEmpty_iff]
        exact fun none => idle (quiet.mp none)
      rw [if_neg busy, ready_sorted inside kept synced]
      apply only_bind (tryRules_yields fun r open' => zipIdx_lookup inside open')
      rintro _ rfl
      apply only_bind (recordRules_only _ [] filled)
      rintro ⟨after, added⟩ ⟨recorded, nodup, reached⟩
      have replay : after = (firedIn state support (opens.map Prod.fst)).foldl
          (recordFired contentHashOf) support := fireAll_eq recorded
      have order := bounds.order.perm added
      have members : ∀ a, a ∈ bounds.order.arrange added ↔
          support.witnessesFor a = [] ∧ after.witnessesFor a ≠ [] := by
        intro a
        rw [order.mem_iff, reached]
        simp
      apply only_bind (releaseAtoms_only inside kept synced (order.nodup_iff.mpr
        (nodup List.nodup_nil)) fun a h => ((members a).mp h).1)
      rintro next ⟨releasing, waiting⟩
      have refs : after.evidenceRefs = support.evidenceRefs := by
        rw [replay, evidenceRefs_recordFired]
      have grows : ∀ a, support.witnessesFor a ≠ [] → after.witnessesFor a ≠ [] := by
        intro a before
        rw [replay, witnessesFor_recordFired]
        simp [before]
      have rest : (opens.map Prod.fst).filter (fun entry => (support.satisfies state entry).isNone) =
          (Placed.left state support opens).map Prod.fst := List.filter_map
      simp only [some', recorded, rest]
      apply ih (List.filter_sublist.trans inside)
      · exact fun r left => kept r (List.mem_of_mem_filter left)
      · rw [replay]
        exact filled.recordFired _
      · exact synced.next kept refs grows members releasing waiting

end
end Knowledge
