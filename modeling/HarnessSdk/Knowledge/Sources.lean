import HarnessSdk.Knowledge.Results
import HarnessSdk.Library.Sweeps

/-! The sources and the assumed atoms of a closure, said without the order of its witnesses. -/
namespace Knowledge
open PyDict PyText Checks Workflow Sweeps

inductive Sourced (has : Atom → SupportWitness → Prop) (cites : EvidenceRef → String → Prop) :
    Atom → String → Prop
  | own {a w s} : has a w → w.sourceGroup = some s → Sourced has cites a s
  | cited {a w ref s} : has a w → .evidence ref ∈ w.premises → cites ref s → Sourced has cites a s
  | inherited {a w b s} : has a w → .proposition b ∈ w.premises → Sourced has cites b s →
      Sourced has cites a s

inductive Clean (has : Atom → SupportWitness → Prop) : Atom → Prop
  | intro {a w} : has a w → w.assumptions = [] →
      (∀ b ∈ propositionAtoms w.premises, Clean has b) → Clean has a

def listed (witnesses : Witnesses) (atom : Atom) (w : SupportWitness) : Prop :=
  ∃ supports, (atom, supports) ∈ witnesses ∧ w ∈ supports

def citedBy (refGroups : Dict EvidenceRef (List String)) (ref : EvidenceRef) (s : String) : Prop :=
  s ∈ (get? refGroups ref).getD []

section
variable (refGroups : Dict EvidenceRef (List String)) (groups : Dict Atom (List String))

def sourcesOf (collected : List String) (support : SupportWitness) : List String :=
  Id.run (supportSources (pure ()) refGroups groups collected support)

def Brings (support : SupportWitness) (s : String) : Prop :=
  support.sourceGroup = some s ∨
    ∃ premise ∈ support.premises, s ∈ premiseSources refGroups groups premise

theorem mem_sourcesOf (collected : List String) (support : SupportWitness) (s : String) :
    s ∈ sourcesOf refGroups groups collected support ↔
      s ∈ collected ∨ Brings refGroups groups support s := by
  have fold : ∀ (premises : List Premise) (acc : List String),
      s ∈ premises.foldl (fun acc premise => unionOf acc (premiseSources refGroups groups premise))
        acc ↔ s ∈ acc ∨ ∃ premise ∈ premises, s ∈ premiseSources refGroups groups premise := by
    intro premises
    induction premises with
    | nil => simp
    | cons premise rest ih =>
      intro acc
      rw [List.foldl_cons, ih, mem_unionOf, List.exists_mem_cons_iff, or_assoc]
  have plain : sourcesOf refGroups groups collected support = support.premises.foldl
      (fun acc premise => unionOf acc (premiseSources refGroups groups premise))
      (unionOf collected support.sourceGroup.toList) := List.idRun_foldlM
  rw [plain, fold, mem_unionOf, Option.mem_toList, or_assoc]
  rfl

def collectedFrom (supports : List SupportWitness) : List String :=
  supports.foldl (sourcesOf refGroups groups) []

theorem mem_collectedFrom (supports : List SupportWitness) (s : String) :
    s ∈ collectedFrom refGroups groups supports ↔
      ∃ w ∈ supports, Brings refGroups groups w s := by
  have fold : ∀ (supports : List SupportWitness) (acc : List String),
      s ∈ supports.foldl (sourcesOf refGroups groups) acc ↔
        s ∈ acc ∨ ∃ w ∈ supports, Brings refGroups groups w s := by
    intro supports
    induction supports with
    | nil => simp
    | cons w rest ih =>
      intro acc
      rw [List.foldl_cons, ih, mem_sourcesOf, List.exists_mem_cons_iff, or_assoc]
  rw [collectedFrom, fold]
  simp

def sourceStep (entry : Atom × List SupportWitness) : Option (Dict Atom (List String)) :=
  let known := (get? groups entry.1).getD []
  if (collectedFrom refGroups groups entry.2).all (· ∈ known) then none
  else some (set groups entry.1 (unionOf known (collectedFrom refGroups groups entry.2)))

variable {entry : Atom × List SupportWitness}

theorem sourceStep_eq_none (stays : sourceStep refGroups groups entry = none) {s : String}
    (collected : s ∈ collectedFrom refGroups groups entry.2) :
    s ∈ (get? groups entry.1).getD [] := by
  simp only [sourceStep, ite_eq_left_iff, reduceCtorEq, imp_false, not_not, List.all_eq_true,
    decide_eq_true_eq] at stays
  exact stays s collected

theorem sourceStep_eq_some {next : Dict Atom (List String)}
    (taken : sourceStep refGroups groups entry = some next) :
    (∃ s ∈ collectedFrom refGroups groups entry.2, s ∉ (get? groups entry.1).getD []) ∧
    next = set groups entry.1 (unionOf ((get? groups entry.1).getD [])
      (collectedFrom refGroups groups entry.2)) := by
  simp only [sourceStep, Option.ite_none_left_eq_some, Option.some.injEq, List.all_eq_true,
    decide_eq_true_eq, not_forall] at taken
  obtain ⟨⟨s, collected, new⟩, rfl⟩ := taken
  exact ⟨⟨s, collected, new⟩, rfl⟩

end

section
variable (witnesses : Witnesses) (refGroups : Dict EvidenceRef (List String))

theorem sourcePass_eq (groups : Dict Atom (List String)) :
    Id.run (sourcePass (pure ()) witnesses refGroups groups) =
      sweep (sourceStep refGroups) witnesses (groups, false) := by
  unfold sourcePass sweep
  rw [List.idRun_foldlM]
  congr 1
  funext state entry
  have collected : Id.run (entry.2.foldlM (supportSources (pure ()) refGroups state.1) []) =
      collectedFrom refGroups state.1 entry.2 := List.idRun_foldlM
  simp only [Id.run_bind, collected, visit, sourceStep]
  split
  · rfl
  · rfl

theorem sourceLoop_eq (fuel : Nat) (groups : Dict Atom (List String)) :
    Id.run (sourceLoop (pure ()) witnesses refGroups fuel groups) =
      saturate (sourceStep refGroups) witnesses fuel groups := by
  induction fuel generalizing groups with
  | zero => rfl
  | succ fuel ih =>
    rw [sourceLoop, Id.run_bind, sourcePass_eq, saturate]
    split
    · exact ih _
    · rfl

theorem sources_adds :
    Adds (sourceStep refGroups) witnesses
      (fun groups (f : Atom × String) => f.2 ∈ (get? groups f.1).getD [])
      fun f => Sourced (listed witnesses) (citedBy refGroups) f.1 f.2 where
  keeps := by
    intro groups entry next taken f known
    obtain ⟨_, rfl⟩ := sourceStep_eq_some _ _ taken
    rw [get?_set]
    by_cases same : entry.1 = f.1
    · rw [if_pos same]
      rw [← same] at known
      simp [known]
    · rwa [if_neg same]
  grows := by
    intro groups entry next taken
    obtain ⟨⟨s, collected, new⟩, rfl⟩ := sourceStep_eq_some _ _ taken
    refine ⟨(entry.1, s), ?_, new⟩
    rw [get?_set_self]
    simp [collected]
  sound := by
    intro groups entry inside next taken only f held
    obtain ⟨_, rfl⟩ := sourceStep_eq_some _ _ taken
    rw [get?_set] at held
    by_cases same : entry.1 = f.1
    · rw [if_pos same, Option.getD_some, mem_unionOf, mem_collectedFrom] at held
      rcases held with old | ⟨w, hw, brings⟩
      · rw [same] at old
        exact only f old
      · have has : listed witnesses f.1 w := ⟨entry.2, same ▸ inside, hw⟩
        rcases brings with own | ⟨premise, hp, brought⟩
        · exact .own has own
        · cases premise with
          | evidence ref => exact .cited has hp brought
          | proposition b => exact .inherited has hp (only (b, f.2) brought)
    · rw [if_neg same] at held
      exact only f held
  complete := by
    rintro groups idle ⟨atom, source⟩ follows
    have holds : ∀ {a w s}, listed witnesses a w → Brings refGroups groups w s →
        s ∈ (get? groups a).getD [] := by
      rintro a w s ⟨supports, inside, hw⟩ brings
      exact sourceStep_eq_none _ _ (idle _ inside) ((mem_collectedFrom _ _ _ _).mpr ⟨w, hw, brings⟩)
    simp only at follows ⊢
    induction follows with
    | own has own => exact holds has (Or.inl own)
    | cited has hp brought => exact holds has (Or.inr ⟨_, hp, brought⟩)
    | inherited has hp _ ih => exact holds has (Or.inr ⟨_, hp, ih⟩)

theorem sourced_inside {atom : Atom} {s : String}
    (sourced : Sourced (listed witnesses) (citedBy refGroups) atom s) :
    atom ∈ keys witnesses ∧ s ∈ sourceNames witnesses refGroups := by
  have key : ∀ {a w}, listed witnesses a w → a ∈ keys witnesses := by
    rintro a w ⟨supports, inside, _⟩
    exact List.mem_map_of_mem inside
  unfold sourceNames
  rw [List.mem_append]
  induction sourced with
  | @own a w s has own =>
    refine ⟨key has, Or.inl ?_⟩
    obtain ⟨supports, inside, hw⟩ := has
    rw [List.mem_flatMap]
    refine ⟨_, inside, ?_⟩
    rw [List.mem_flatMap]
    exact ⟨w, hw, by simp [own]⟩
  | @cited a w ref s has _ brought =>
    refine ⟨key has, Or.inr ?_⟩
    unfold citedBy at brought
    cases found : get? refGroups ref with
    | none => simp [found] at brought
    | some names =>
      rw [found] at brought
      exact List.mem_flatMap.mpr ⟨_, mem_of_get?_eq_some found, brought⟩
  | inherited has _ _ ih => exact ⟨key has, ih.2⟩

theorem mem_sourceGroups (atom : Atom) (s : String) :
    s ∈ (get? (Id.run (sourceGroups (pure ()) witnesses refGroups)) atom).getD [] ↔
      Sourced (listed witnesses) (citedBy refGroups) atom s := by
  have nothing : ∀ a, (get? (witnesses.map fun entry => (entry.1, ([] : List String))) a).getD [] =
      [] := by
    intro a
    rw [get?_map fun _ => ([] : List String)]
    cases get? witnesses a <;> rfl
  have size : ((keys witnesses).toFinset ×ˢ (sourceNames witnesses refGroups).toFinset).card ≤
      witnesses.length * (sourceNames witnesses refGroups).length := by
    rw [Finset.card_product]
    apply Nat.mul_le_mul
    · exact (List.toFinset_card_le _).trans (by simp [keys])
    · exact List.toFinset_card_le _
  rw [sourceGroups, sourceLoop_eq]
  apply (sources_adds witnesses refGroups).saturate_iff
    ((keys witnesses).toFinset ×ˢ (sourceNames witnesses refGroups).toFinset) ?_ _ _ ?_ ?_ (atom, s)
  · rintro ⟨a, source⟩ sourced
    obtain ⟨key, name⟩ := sourced_inside witnesses refGroups sourced
    simp [key, name]
  · rintro ⟨a, source⟩ held
    rw [nothing] at held
    cases held
  · omega

theorem mem_keys_sourceGroups (atom : Atom) :
    atom ∈ keys (Id.run (sourceGroups (pure ()) witnesses refGroups)) ↔ atom ∈ keys witnesses := by
  rw [sourceGroups, sourceLoop_eq]
  apply saturate_keeps fun groups : Dict Atom (List String) =>
    atom ∈ keys groups ↔ atom ∈ keys witnesses
  · intro groups entry inside next taken held
    obtain ⟨_, rfl⟩ := sourceStep_eq_some _ _ taken
    rw [mem_keys_set, held]
    constructor
    · rintro (rfl | old)
      · exact List.mem_map_of_mem inside
      · exact old
    · exact Or.inr
  · simp [keys]

theorem pathGroups_eq (groups : Dict Atom (List String)) (atom : Atom) :
    (get? (Id.run (pathGroups (pure ()) witnesses groups refGroups)) atom).getD [] =
      ((get? witnesses atom).getD []).map (sourcesOf refGroups groups []) := by
  have plain : Id.run (pathGroups (pure ()) witnesses groups refGroups) =
      witnesses.map fun entry => (entry.1, entry.2.map (sourcesOf refGroups groups [])) := by
    rw [pathGroups, List.idRun_mapM]
    apply List.map_congr_left
    intro entry _
    rw [Id.run_bind, List.idRun_mapM]
    rfl
  rw [plain, get?_map (List.map (sourcesOf refGroups groups []))]
  cases get? witnesses atom <;> rfl

end

/-! The clean atoms. -/

theorem hasCleanSupport_iff (clean : List Atom) (supports : List SupportWitness) :
    Id.run (hasCleanSupport (pure ()) clean supports) = true ↔
      ∃ w ∈ supports, w.assumptions = [] ∧ ∀ b ∈ propositionAtoms w.premises, b ∈ clean := by
  induction supports with
  | nil => simp [hasCleanSupport]
  | cons w rest ih =>
    rw [hasCleanSupport, List.exists_mem_cons_iff, ← ih, Id.run_bind]
    by_cases assumed : w.assumptions = []
    · rw [if_neg (by simpa using assumed), Id.run_bind]
      by_cases all : (propositionAtoms w.premises).all (· ∈ clean) = true
      · rw [if_pos all]
        simp only [List.all_eq_true, decide_eq_true_eq] at all
        simp only [assumed, true_and]
        exact iff_of_true rfl (Or.inl all)
      · rw [if_neg all]
        simp only [List.all_eq_true, decide_eq_true_eq] at all
        simp [all]
    · rw [if_pos assumed]
      simp [assumed]

def cleanStep (clean : List Atom) (entry : Atom × List SupportWitness) : Option (List Atom) :=
  if entry.1 ∈ clean then none
  else if Id.run (hasCleanSupport (pure ()) clean entry.2) then some (clean ++ [entry.1])
  else none

theorem cleanStep_eq_some {clean next : List Atom} {entry : Atom × List SupportWitness}
    (taken : cleanStep clean entry = some next) :
    entry.1 ∉ clean ∧ next = clean ++ [entry.1] ∧
      ∃ w ∈ entry.2, w.assumptions = [] ∧ ∀ b ∈ propositionAtoms w.premises, b ∈ clean := by
  unfold cleanStep at taken
  split at taken
  · cases taken
  · next new =>
    split at taken
    · next found =>
      cases taken
      exact ⟨new, rfl, (hasCleanSupport_iff _ _).mp found⟩
    · cases taken

section
variable (witnesses : Witnesses)

theorem cleanPass_eq (clean : List Atom) :
    Id.run (cleanPass (pure ()) witnesses clean) = sweep cleanStep witnesses (clean, false) := by
  unfold cleanPass sweep
  rw [List.idRun_foldlM]
  congr 1
  funext state entry
  rw [Id.run_bind, visit, cleanStep]
  by_cases known : entry.1 ∈ state.1
  · rw [if_pos known, if_pos known]
    rfl
  · rw [if_neg known, if_neg known, Id.run_bind]
    by_cases found : Id.run (hasCleanSupport (pure ()) state.1 entry.2) = true
    · rw [if_pos found, if_pos found]
      rfl
    · rw [if_neg found, if_neg found]
      rfl

theorem cleanLoop_eq (fuel : Nat) (clean : List Atom) :
    Id.run (cleanLoop (pure ()) witnesses fuel clean) = saturate cleanStep witnesses fuel clean := by
  induction fuel generalizing clean with
  | zero => rfl
  | succ fuel ih =>
    rw [cleanLoop, Id.run_bind, cleanPass_eq, saturate]
    split
    · exact ih _
    · rfl

theorem clean_adds :
    Adds cleanStep witnesses (fun clean atom => atom ∈ clean) (Clean (listed witnesses)) where
  keeps := by
    intro clean entry next taken atom known
    obtain ⟨_, rfl, _⟩ := cleanStep_eq_some taken
    exact List.mem_append_left _ known
  grows := by
    intro clean entry next taken
    obtain ⟨new, rfl, _⟩ := cleanStep_eq_some taken
    exact ⟨entry.1, by simp, new⟩
  sound := by
    intro clean entry inside next taken only atom held
    obtain ⟨_, rfl, w, hw, unassumed, atoms⟩ := cleanStep_eq_some taken
    rcases List.mem_append.mp held with old | new
    · exact only atom old
    · rw [List.mem_singleton] at new
      subst new
      exact .intro ⟨entry.2, inside, hw⟩ unassumed fun b hb => only b (atoms b hb)
  complete := by
    intro clean idle atom follows
    induction follows with
    | @intro a w has unassumed _ ih =>
      obtain ⟨supports, inside, hw⟩ := has
      have stays := idle _ inside
      have found := (hasCleanSupport_iff clean supports).mpr ⟨w, hw, unassumed, ih⟩
      by_contra missing
      rw [cleanStep, if_neg missing, if_pos found] at stays
      cases stays

theorem mem_assumptionBacked (atom : Atom) :
    atom ∈ Id.run (assumptionBacked (pure ()) witnesses) ↔
      atom ∈ keys witnesses ∧ ¬ Clean (listed witnesses) atom := by
  have size : (keys witnesses).toFinset.card ≤ witnesses.length :=
    (List.toFinset_card_le _).trans (by simp [keys])
  have exact' : ∀ a, a ∈ Id.run (cleanLoop (pure ()) witnesses (witnesses.length + 1) []) ↔
      Clean (listed witnesses) a := by
    intro a
    rw [cleanLoop_eq]
    apply (clean_adds witnesses).saturate_iff (keys witnesses).toFinset
    · rintro b ⟨⟨supports, inside, _⟩, _, _⟩
      rw [List.mem_toFinset]
      exact List.mem_map_of_mem inside
    · simp
    · omega
  rw [assumptionBacked, Id.run_bind, Id.run_pure, List.mem_filter, decide_eq_true_eq, exact']

end
end Knowledge
