import HarnessSdk.Contracts.Decoding
import HarnessSdk.Registry.Lifecycle

/-! What one operation stores, and when a method version keeps one body over a whole run. -/
namespace Registry
open PyDict PyText Checks Workflow Contracts Transitions
open Network (TypedRef)
open Planning (MethodRegistryStatus)

section
variable (contentHashOf : Json → HashHex) (printable : Char → Bool)

def after (operations : List Operation) : MethodRegistry :=
  run (Operation.apply contentHashOf printable) {} operations

theorem after_concat (before : List Operation) (op : Operation) :
    after contentHashOf printable (before ++ [op]) =
      op.apply contentHashOf printable (after contentHashOf printable before) :=
  run_append _ _ _ _

theorem after_singleton (op : Operation) :
    after contentHashOf printable [op] = op.apply contentHashOf printable {} := rfl

/-- The submission is made as what it is, and its definition passes the three checks. -/
structure Admissible (proposal : MethodProposal) (author : RegistryAuthor)
    (policy : AdmissionPolicy) : Prop where
  drafted : author = .model → proposal.declaredStatus = .draft
  owned : proposal.author = author
  passes : Passes proposal.method policy

def ClashFree (registry : MethodRegistry) (method : MethodContract) : Prop :=
  ∀ existing, get? registry.definitions (method.methodRef contentHashOf) = some existing →
    existing.toJson.sameText method.toJson = true

variable {proposal : MethodProposal} {author : RegistryAuthor} {registry : MethodRegistry}
  {method : MethodContract} {registration : MethodRegistration}

theorem claimProblem_eq_none :
    MethodRegistry.claimProblem proposal author = none ↔
      (author = .model → proposal.declaredStatus = .draft) ∧ proposal.author = author := by
  unfold MethodRegistry.claimProblem
  by_cases claimed : author = .model ∧ proposal.declaredStatus ≠ .draft
  · rw [if_pos claimed]
    simp only [reduceCtorEq, false_iff, not_and]
    intro drafted
    exact absurd (drafted claimed.1) claimed.2
  · rw [if_neg claimed]
    have drafted : author = .model → proposal.declaredStatus = .draft := by
      intro model
      by_contra other
      exact claimed ⟨model, other⟩
    by_cases owned : proposal.author = author
    · simpa [owned] using drafted
    · simp [owned]

theorem clashProblem_eq_none :
    registry.clashProblem contentHashOf method = none ↔ ClashFree contentHashOf registry method := by
  unfold MethodRegistry.clashProblem ClashFree
  cases stored : get? registry.definitions (method.methodRef contentHashOf) with
  | none => simp
  | some existing =>
    by_cases same : existing.toJson.sameText method.toJson = true
    · simp [same]
    · simp [same]

theorem refusalOf_eq_none {policy : AdmissionPolicy} :
    registry.refusalOf contentHashOf proposal author policy = none ↔
      Admissible proposal author policy ∧ ClashFree contentHashOf registry proposal.method := by
  rw [← clashProblem_eq_none]
  unfold MethodRegistry.refusalOf
  cases claim : MethodRegistry.claimProblem proposal author with
  | some problem =>
    simp only [reduceCtorEq, false_iff, not_and]
    intro admissible
    have fine := claimProblem_eq_none.mpr ⟨admissible.drafted, admissible.owned⟩
    rw [fine] at claim
    cases claim
  | none =>
    obtain ⟨drafted, owned⟩ := claimProblem_eq_none.mp claim
    cases clash : registry.clashProblem contentHashOf proposal.method with
    | some problem => simp
    | none =>
      have passes_iff : Admissible proposal author policy ↔ Passes proposal.method policy :=
        ⟨fun admissible => admissible.passes, fun passes => ⟨drafted, owned, passes⟩⟩
      rw [passes_iff]
      unfold Passes
      by_cases one : (checkStructureAndTypes proposal.method policy).1 = []
      · by_cases two : (checkRegistries proposal.method policy).problems = []
        · by_cases three : (checkStructure proposal.method policy).1 = []
          · simp [one, two, three]
          · simp [one, two, three]
        · simp [one, two]
      · simp [one]

variable {next : MethodRegistry} {candidate : MethodCandidate}

theorem restore_eq_ok {contract : MethodContract} :
    registry.restore contentHashOf contract registration = .ok next ↔
      registration.methodRef = contract.methodRef contentHashOf ∧ registration.author ≠ .model ∧
      (∀ other ∈ keys registry.definitions, other.methodId = contract.methodId →
        other.version = contract.methodVersion → other = contract.methodRef contentHashOf) ∧
      next = {
        registry.index contract (contract.methodRef contentHashOf) with
        definitions := set registry.definitions (contract.methodRef contentHashOf) contract
        registrations :=
          set registry.registrations (contract.methodRef contentHashOf) registration
        evaluationScopes := registry.evaluationScopes.filter
          (·.1 ≠ contract.methodRef contentHashOf) } := by
  unfold MethodRegistry.restore
  by_cases described : registration.methodRef ≠ contract.methodRef contentHashOf ∨
      registration.author = .model
  · simp only [described, if_true, reduceCtorEq, false_iff]
    rintro ⟨named, system, -⟩
    rcases described with other | model
    · exact other named
    · exact system model
  · simp only [described, if_false]
    rw [not_or, not_not] at described
    by_cases conflict : ∃ other ∈ keys registry.definitions,
        other.methodId = (contract.methodRef contentHashOf).methodId ∧
        other.version = (contract.methodRef contentHashOf).version ∧
        other ≠ contract.methodRef contentHashOf
    · simp only [conflict, if_true, reduceCtorEq, false_iff]
      rintro ⟨-, -, alone, -⟩
      obtain ⟨other, inside, id, version, differ⟩ := conflict
      exact differ (alone other inside id version)
    · simp only [conflict, if_false, Except.ok.injEq]
      constructor
      · intro made
        refine ⟨described.1, described.2, ?_, made.symm⟩
        intro other inside id version
        by_contra differ
        exact conflict ⟨other, inside, id, version, differ⟩
      · intro facts
        exact facts.2.2.2.symm

def Operation.submits : Operation → Bool
  | .admitMethod _ _ _ => true
  | _ => false

inductive Step (registry : MethodRegistry) : Operation → MethodRegistry → Prop
  | accepted {proposal author policy} (admissible : Admissible proposal author policy)
      (clear : ClashFree contentHashOf registry proposal.method) :
      Step registry (.admitMethod proposal author policy)
        (registry.accept contentHashOf printable proposal.method author policy).2
  | refused {proposal author policy refusal}
      (problem : registry.refusalOf contentHashOf proposal author policy = some refusal) :
      Step registry (.admitMethod proposal author policy) (registry.refuse contentHashOf printable
        (proposal.method.methodRef contentHashOf) author policy refusal).2
  | restored {contract registration next}
      (ok : registry.restore contentHashOf contract registration = .ok next) :
      Step registry (.restore contract registration) next
  | suspended {ref reason registration}
      (found : get? registry.registrations ref = some registration) :
      Step registry (.suspend ref reason) {
        registry with
        registrations := set registry.registrations ref
          (MethodRegistry.settled ref .suspended registration.admissionReceiptRef) }
  | retired {ref reason registration}
      (found : get? registry.registrations ref = some registration) :
      Step registry (.retire ref reason) {
        registry with
        registrations := set registry.registrations ref
          (MethodRegistry.settled ref .retired registration.admissionReceiptRef) }
  | reinstated {ref mission reason registration scope next}
      (found : get? registry.registrations ref = some registration)
      (suspended : registration.status = .suspended)
      (ok : registry.reinstate ref mission reason = .ok next)
      (made : next = {
        registry with
        registrations := set registry.registrations ref
          (MethodRegistry.trial ref registration.admissionReceiptRef scope) }) :
      Step registry (.reinstate ref mission reason) next
  | rescoped {ref missions scopes} :
      Step registry (.allowEvaluationTrials ref missions) {
        registry with
        evaluationScopes := scopes }
  | used {ref mission uses} :
      Step registry (.noteTrialUse ref mission) {
        registry with
        trialUses := uses }
  | unrecorded {proposal author policy refusal}
      (problem : registry.refusalOf contentHashOf proposal author policy = some refusal) :
      Step registry (.admitMethod proposal author policy) registry
  | nothing {op} (other : op.submits = false) : Step registry op registry

variable {ref : MethodRef}

theorem requireRegistration_eq_ok :
    registry.requireRegistration ref = .ok registration ↔
      get? registry.registrations ref = some registration := by
  unfold MethodRegistry.requireRegistration
  cases get? registry.registrations ref <;> simp

theorem withdraw_eq_ok {status : MethodRegistryStatus} {reason : Json}
    {apart : status ≠ .trialAdmitted} (ok : registry.withdraw ref status reason apart = .ok next) :
    ∃ registration, get? registry.registrations ref = some registration ∧
      next = {
        registry with
        registrations := set registry.registrations ref
          (MethodRegistry.settled ref status registration.admissionReceiptRef apart) } := by
  unfold MethodRegistry.withdraw at ok
  obtain ⟨registration, found, ok⟩ := bind_eq_ok.mp ok
  obtain ⟨_, _, ok⟩ := bind_eq_ok.mp ok
  cases ok
  exact ⟨registration, requireRegistration_eq_ok.mp found, rfl⟩

theorem admit_cases (registry : MethodRegistry) (proposal : MethodProposal)
    (author : RegistryAuthor) (policy : AdmissionPolicy) :
    (registry.refusalOf contentHashOf proposal author policy = none ∧
      registry.admitMethod contentHashOf printable proposal author policy =
        .ok (registry.accept contentHashOf printable proposal.method author policy)) ∨
    ∃ refusal, registry.refusalOf contentHashOf proposal author policy = some refusal ∧
      (registry.admitMethod contentHashOf printable proposal author policy =
        .ok (registry.refuse contentHashOf printable (proposal.method.methodRef contentHashOf)
          author policy refusal) ∨
      ∃ raised, registry.admitMethod contentHashOf printable proposal author policy = .error raised) := by
  cases decided : registry.refusalOf contentHashOf proposal author policy with
  | none => exact Or.inl ⟨rfl, by rw [MethodRegistry.admitMethod, decided]⟩
  | some refusal =>
    refine Or.inr ⟨refusal, rfl, ?_⟩
    rw [MethodRegistry.admitMethod, decided]
    dsimp only
    split
    · exact Or.inl rfl
    · exact Or.inr ⟨_, rfl⟩

theorem step_of_ok {op : Operation} {made : Except Message MethodRegistry}
    (applied : op.apply contentHashOf printable registry = made.toOption.getD registry)
    (other : op.submits = false)
    (step : ∀ next, made = .ok next → Step contentHashOf printable registry op next) :
    Step contentHashOf printable registry op (op.apply contentHashOf printable registry) := by
  rw [applied]
  cases made with
  | error _ => exact Step.nothing other
  | ok next => exact step next rfl

theorem step_apply (registry : MethodRegistry) (op : Operation) :
    Step contentHashOf printable registry op (op.apply contentHashOf printable registry) := by
  cases op with
  | admitMethod proposal author policy =>
    rcases admit_cases contentHashOf printable registry proposal author policy with
      ⟨decided, ok⟩ | ⟨refusal, decided, ok | ⟨raised, ok⟩⟩
    · simp only [Operation.apply, ok]
      obtain ⟨admissible, clear⟩ := (refusalOf_eq_none contentHashOf).mp decided
      exact Step.accepted admissible clear
    · simp only [Operation.apply, ok]
      exact Step.refused decided
    · simp only [Operation.apply, ok]
      exact Step.unrecorded decided
  | restore contract registration =>
    exact step_of_ok _ _ rfl rfl fun next ok => Step.restored ok
  | suspend ref reason =>
    refine step_of_ok _ _ rfl rfl fun next ok => ?_
    obtain ⟨registration, found, rfl⟩ := withdraw_eq_ok ok
    exact Step.suspended found
  | retire ref reason =>
    refine step_of_ok _ _ rfl rfl fun next ok => ?_
    obtain ⟨registration, found, rfl⟩ := withdraw_eq_ok ok
    exact Step.retired found
  | reinstate ref mission reason =>
    refine step_of_ok _ _ rfl rfl fun next ok => ?_
    have reinstated := ok
    unfold MethodRegistry.reinstate at ok
    obtain ⟨registration, found, ok⟩ := bind_eq_ok.mp ok
    split at ok
    · cases ok
    · next status =>
      obtain ⟨_, _, ok⟩ := bind_eq_ok.mp ok
      obtain ⟨scope, _, ok⟩ := bind_eq_ok.mp ok
      exact Step.reinstated (requireRegistration_eq_ok.mp found) (not_not.mp status) reinstated
        (Except.ok.inj ok).symm
  | allowEvaluationTrials ref missions =>
    refine step_of_ok _ _ rfl rfl fun next ok => ?_
    unfold MethodRegistry.allowEvaluationTrials at ok
    obtain ⟨registration, found, ok⟩ := bind_eq_ok.mp ok
    split at ok
    · cases ok
      exact Step.nothing rfl
    · obtain ⟨scope, _, ok⟩ := bind_eq_ok.mp ok
      cases ok
      exact Step.rescoped
  | noteTrialUse ref mission =>
    refine step_of_ok _ _ rfl rfl fun next ok => ?_
    unfold MethodRegistry.noteTrialUse at ok
    obtain ⟨mission, _, ok⟩ := bind_eq_ok.mp ok
    cases ok
    exact Step.used

inductive Defines (registry : MethodRegistry) : Operation → MethodContract → Prop
  | admitted {proposal author policy} (admissible : Admissible proposal author policy)
      (clear : ClashFree contentHashOf registry proposal.method) :
      Defines registry (.admitMethod proposal author policy) proposal.method
  | restored {contract registration next}
      (ok : registry.restore contentHashOf contract registration = .ok next) :
      Defines registry (.restore contract registration) contract

theorem definitions_apply (registry : MethodRegistry) (op : Operation) :
    ((op.apply contentHashOf printable registry).definitions = registry.definitions ∧
      (op.apply contentHashOf printable registry).byGoalType = registry.byGoalType) ∨
    ∃ method, Defines contentHashOf registry op method ∧
      (op.apply contentHashOf printable registry).definitions =
        set registry.definitions (method.methodRef contentHashOf) method ∧
      (op.apply contentHashOf printable registry).byGoalType =
        joinBucket registry.byGoalType method.goalTypeRef (method.methodRef contentHashOf) := by
  have step := step_apply contentHashOf printable registry op
  generalize op.apply contentHashOf printable registry = next at step
  cases step with
  | accepted admissible clear => exact Or.inr ⟨_, Defines.admitted admissible clear, rfl, rfl⟩
  | restored ok =>
    have made := ((restore_eq_ok contentHashOf).mp ok).2.2.2
    subst made
    exact Or.inr ⟨_, Defines.restored ok, rfl, rfl⟩
  | refused _ => exact Or.inl ⟨rfl, rfl⟩
  | suspended _ => exact Or.inl ⟨rfl, rfl⟩
  | retired _ => exact Or.inl ⟨rfl, rfl⟩
  | reinstated _ _ _ made =>
    subst made
    exact Or.inl ⟨rfl, rfl⟩
  | rescoped => exact Or.inl ⟨rfl, rfl⟩
  | used => exact Or.inl ⟨rfl, rfl⟩
  | unrecorded _ => exact Or.inl ⟨rfl, rfl⟩
  | nothing _ => exact Or.inl ⟨rfl, rfl⟩

/-- A definition stands under its own identity, and the index offers stored definitions only. -/
structure Filed (registry : MethodRegistry) : Prop where
  keyed : ∀ key method, get? registry.definitions key = some method →
    method.methodRef contentHashOf = key
  indexed : ∀ goal key, key ∈ (get? registry.byGoalType goal).getD [] →
    key ∈ keys registry.definitions

theorem mem_joinBucket {κ : Type} [DecidableEq κ] {buckets : Dict κ (List MethodRef)}
    {bucket other : κ} {key member : MethodRef}
    (inside : member ∈ (get? (joinBucket buckets bucket key) other).getD []) :
    member = key ∨ member ∈ (get? buckets other).getD [] := by
  rw [joinBucket, get?_set] at inside
  split at inside
  · next same =>
    subst same
    rw [Option.getD_some] at inside
    split at inside
    · exact Or.inr inside
    · rcases List.mem_append.mp inside with old | new
      · exact Or.inr old
      · exact Or.inl (List.mem_singleton.mp new)
  · exact Or.inr inside

theorem filed_apply (op : Operation) (filed : Filed contentHashOf registry) :
    Filed contentHashOf (op.apply contentHashOf printable registry) := by
  rcases definitions_apply contentHashOf printable registry op with
    ⟨same, index⟩ | ⟨method, _, stored, index⟩
  · constructor
    · rw [same]
      exact filed.keyed
    · rw [same, index]
      exact filed.indexed
  · constructor
    · intro key found there
      rw [stored, get?_set] at there
      split at there
      · next same =>
        cases there
        exact same
      · exact filed.keyed key found there
    · intro goal key inside
      rw [stored, mem_keys_set]
      rw [index] at inside
      rcases mem_joinBucket inside with new | old
      · exact Or.inl new
      · exact Or.inr (filed.indexed goal key old)

theorem filed_after (operations : List Operation) :
    Filed contentHashOf (after contentHashOf printable operations) :=
  run_keeps (Filed contentHashOf) (fun _ op => filed_apply contentHashOf printable op)
    ⟨by simp, by simp⟩ operations

def OneBody (registry : MethodRegistry) : Prop :=
  ∀ a ∈ keys registry.definitions, ∀ b ∈ keys registry.definitions,
    a.methodId = b.methodId → a.version = b.version → a = b

/-- A submission that the checks accept does not change the bytes of a defined version. -/
def Fresh (registry : MethodRegistry) : Operation → Prop
  | .admitMethod proposal author policy => Admissible proposal author policy →
      ∀ other ∈ keys registry.definitions, other.methodId = proposal.method.methodId →
        other.version = proposal.method.methodVersion →
        other.contentHash = contentHashOf proposal.method.toJson
  | _ => True

theorem methodRef_of_parts {contentHashOf : Json → HashHex} (id : ref.methodId = method.methodId)
    (version : ref.version = method.methodVersion)
    (hash : ref.contentHash = contentHashOf method.toJson) :
    ref = method.methodRef contentHashOf := by
  cases ref
  cases id
  cases version
  cases hash
  rfl

theorem oneBody_set {definitions : Dict MethodRef MethodContract}
    (alone : ∀ other ∈ keys definitions, other.methodId = method.methodId → other.version =
      method.methodVersion → other = method.methodRef contentHashOf)
    (one : ∀ a ∈ keys definitions, ∀ b ∈ keys definitions, a.methodId = b.methodId → a.version =
      b.version → a = b) :
    ∀ a ∈ keys (set definitions (method.methodRef contentHashOf) method),
      ∀ b ∈ keys (set definitions (method.methodRef contentHashOf) method),
        a.methodId = b.methodId → a.version = b.version → a = b := by
  intro a ha b hb id version
  rw [mem_keys_set] at ha hb
  rcases ha with rfl | ha
  · rcases hb with rfl | hb
    · rfl
    · exact (alone b hb id.symm version.symm).symm
  · rcases hb with rfl | hb
    · exact alone a ha id version
    · exact one a ha b hb id version

variable {op : Operation}

theorem oneBody_apply (one : OneBody registry) (fresh : Fresh contentHashOf registry op) :
    OneBody (op.apply contentHashOf printable registry) := by
  rcases definitions_apply contentHashOf printable registry op with
    ⟨same, _⟩ | ⟨method, defines, stored, _⟩
  · rw [OneBody, same]
    exact one
  · rw [OneBody, stored]
    apply oneBody_set contentHashOf _ one
    cases defines with
    | admitted admissible clear =>
      intro other inside id version
      exact methodRef_of_parts id version (fresh admissible other inside id version)
    | restored ok => exact ((restore_eq_ok contentHashOf).mp ok).2.2.1

theorem fresh_of_oneBody (one : OneBody registry)
    (next : OneBody (op.apply contentHashOf printable registry)) :
    Fresh contentHashOf registry op := by
  cases op with
  | admitMethod proposal author policy =>
    intro admissible other inside id version
    rcases admit_cases contentHashOf printable registry proposal author policy with
      ⟨_, ok⟩ | ⟨refusal, decided, _⟩
    · simp only [Operation.apply, ok] at next
      have stored : (registry.accept contentHashOf printable proposal.method author policy).2.definitions
          = set registry.definitions (proposal.method.methodRef contentHashOf) proposal.method := rfl
      rw [OneBody, stored] at next
      have same := next other (by simp [mem_keys_set, inside])
        (proposal.method.methodRef contentHashOf) (by simp [mem_keys_set]) id version
      rw [same]
      rfl
    · have clash : ¬ClashFree contentHashOf registry proposal.method := by
        intro clear
        rw [(refusalOf_eq_none contentHashOf).mpr ⟨admissible, clear⟩] at decided
        cases decided
      simp only [ClashFree, not_forall] at clash
      obtain ⟨existing, there, _⟩ := clash
      have known : proposal.method.methodRef contentHashOf ∈ keys registry.definitions := by
        rw [← get?_isSome_iff, there]
        rfl
      rw [one other inside _ known id version]
      rfl
  | _ => trivial

/-- The definitions of this registry can be restored into any registry that holds no others. -/
def Restorable (registry : MethodRegistry) : Prop :=
  ∀ other : MethodRegistry, (∀ key ∈ keys other.definitions, key ∈ keys registry.definitions) →
    ∀ key method, get? registry.definitions key = some method →
    ∀ registration : MethodRegistration, registration.methodRef = key →
      registration.author ≠ .model → ∃ next, other.restore contentHashOf method registration = .ok next

def OffersOneBody (registry : MethodRegistry) : Prop :=
  ∀ goal mission found, registry.candidatesFor goal mission = .ok found →
    ∀ a ∈ found, ∀ b ∈ found, a.methodRef.methodId = b.methodRef.methodId →
      a.methodRef.version = b.methodRef.version → a.method = b.method

theorem restorable_of_oneBody (filed : Filed contentHashOf registry) (one : OneBody registry) :
    Restorable contentHashOf registry := by
  intro other within key method stored registration named system
  have keyed := filed.keyed key method stored
  have known : key ∈ keys registry.definitions := by
    rw [← get?_isSome_iff, stored]
    rfl
  refine ⟨_, (restore_eq_ok contentHashOf).mpr ⟨named.trans keyed.symm, system, ?_, rfl⟩⟩
  intro old inside id version
  subst keyed
  exact one old (within old inside) _ known id version

variable {mission : Identifier}

theorem candidate_eq_ok {key : MethodRef}
    (ok : registry.candidate mission key = .ok (some candidate)) :
    candidate.methodRef = key ∧ get? registry.definitions key = some candidate.method ∧
      registry.retrievable key mission = true ∧
      get? registry.registrations key = some candidate.registration := by
  unfold MethodRegistry.candidate at ok
  split at ok
  · cases ok
  · next method stored =>
    split at ok
    · next offered =>
      split at ok
      · cases ok
      · next registration found =>
        cases ok
        exact ⟨rfl, stored, offered, found⟩
    · cases ok

theorem mem_candidatesFor {goal : VersionedRef} {found : List MethodCandidate}
    (ok : registry.candidatesFor goal mission = .ok found) (inside : candidate ∈ found) :
    candidate.methodRef ∈ (get? registry.byGoalType goal).getD [] ∧
      get? registry.definitions candidate.methodRef = some candidate.method ∧
      registry.retrievable candidate.methodRef mission = true ∧
      get? registry.registrations candidate.methodRef = some candidate.registration := by
  unfold MethodRegistry.candidatesFor at ok
  obtain ⟨rounds, all, ok⟩ := bind_eq_ok.mp ok
  cases ok
  obtain ⟨entry, there, made⟩ := List.mem_filterMap.mp inside
  cases made
  obtain ⟨key, offered, made⟩ := (mem_of_mapM all _).mp there
  obtain ⟨named, stored, retrievable, registered⟩ := candidate_eq_ok made
  subst named
  exact ⟨(List.mem_insertionSort _).mp offered, stored, retrievable, registered⟩

theorem offersOneBody_of_oneBody (one : OneBody registry) : OffersOneBody registry := by
  intro goal mission found ok a ha b hb id version
  obtain ⟨_, stored, _, _⟩ := mem_candidatesFor ok ha
  obtain ⟨_, stored', _, _⟩ := mem_candidatesFor ok hb
  have known : ∀ {key : MethodRef} {method}, get? registry.definitions key = some method →
      key ∈ keys registry.definitions := by
    intro key method there
    rw [← get?_isSome_iff, there]
    rfl
  rw [one _ (known stored) _ (known stored') id version, stored'] at stored
  exact (Option.some.inj stored).symm

structure Immutable (registry : MethodRegistry) : Prop where
  oneBody : OneBody registry
  restorable : Restorable contentHashOf registry
  offers : OffersOneBody registry

theorem immutable_iff (filed : Filed contentHashOf registry) :
    Immutable contentHashOf registry ↔ OneBody registry :=
  ⟨Immutable.oneBody, fun one =>
    ⟨one, restorable_of_oneBody contentHashOf filed one, offersOneBody_of_oneBody one⟩⟩

/-- A run keeps every method version to one body exactly when none of its accepted submissions
changes the bytes of a version defined before it. -/
theorem versions_immutable_iff (operations : List Operation) :
    (∀ before later, operations = before ++ later →
      Immutable contentHashOf (after contentHashOf printable before)) ↔
    ∀ before op later, operations = before ++ op :: later →
      Fresh contentHashOf (after contentHashOf printable before) op := by
  have filed := filed_after contentHashOf printable
  constructor
  · intro kept before op later split
    have one := (kept before (op :: later) split).oneBody
    have next := (kept (before ++ [op]) later (by simp [split])).oneBody
    rw [after_concat] at next
    exact fresh_of_oneBody contentHashOf printable one next
  · intro fresh before
    induction before using List.reverseRecOn with
    | nil =>
      intro later _
      apply (immutable_iff contentHashOf (filed [])).mpr
      intro a ha
      cases ha
    | append_singleton before op ih =>
      intro later split
      have split' : operations = before ++ op :: later := by simp [split]
      have one := (ih (op :: later) split').oneBody
      apply (immutable_iff contentHashOf (filed _)).mpr
      rw [after_concat]
      exact oneBody_apply contentHashOf printable one (fresh before op later split')

end

def zeroHash : HashHex where
  text := "0000000000000000000000000000000000000000000000000000000000000000"
  wellFormed := by decide

def first : Counter 1 := ⟨1, by decide, by decide⟩

def refTo (id : Identifier) : VersionedRef := ⟨id, first, zeroHash⟩

def editType : TaskTypeSpec where
  taskTypeRef := refTo ⟨"code.edit", by decide⟩
  form := .primitive
  goalSignature := { statement := ⟨"edit a file", by decide⟩ }
  operatorRef := some (refTo ⟨"op.edit", by decide⟩)

def fixType : TaskTypeSpec where
  taskTypeRef := refTo ⟨"code.fix", by decide⟩
  form := .compound
  goalSignature := {
    statement := ⟨"fix the fault", by decide⟩
    coverageCriteria := { items := [⟨"c-fixed", by decide⟩] } }

def emptySchema (id : Identifier) : ObjectSchema where
  schemaRef := refTo id

/-- One compound goal, one operator and two schemas without fields. -/
def fixPolicy (mission : Identifier) : AdmissionPolicy where
  policyRef := ⟨"policy", by decide⟩
  policyVersion := first
  missionId := mission
  taskTypes := [((⟨"code.edit", by decide⟩, first), editType),
    ((⟨"code.fix", by decide⟩, first), fixType)]
  schemas := [((⟨"in", by decide⟩, first), emptySchema ⟨"in", by decide⟩),
    ((⟨"out", by decide⟩, first), emptySchema ⟨"out", by decide⟩)]

def fixBy (step : Identifier) : MethodContract where
  methodId := ⟨"fix-by-edit", by decide⟩
  methodVersion := first
  goalTypeRef := refTo ⟨"code.fix", by decide⟩
  parameterSchemaRef := refTo ⟨"in", by decide⟩
  outputSchemaRef := refTo ⟨"out", by decide⟩
  steps := [{
    localId := step
    taskTypeRef := refTo ⟨"code.edit", by decide⟩
    form := .primitive }]
  composition := {
    criterionLinks := [⟨⟨"c-fixed", by decide⟩, some step, none, ⟨"the report", by decide⟩⟩] }
  stepsDistinct := by simp
  orderingKnown := by simp
  finalizerKnown := by simp

def edit : Identifier := ⟨"edit", by decide⟩

def patch : Identifier := ⟨"patch", by decide⟩

def firstStep : Json → Json
  | .obj fields =>
    match get? fields "steps" with
    | some (.arr (.obj step :: _)) => field step "local_id"
    | _ => .null
  | _ => .null

/-- The SHA-256 digests of the two definitions. -/
def fixHashes (payload : Json) : HashHex :=
  match firstStep payload with
  | .str "edit" => ⟨"0825774ba91f90e8168fedcbad798e603b94d4f2522289c2dc4e3c443dcd525d", by decide⟩
  | .str "patch" => ⟨"58afd696a48b6593640d09e709482e3f998eddc3e902b4542e6db2423cdf43c1", by decide⟩
  | _ => zeroHash

theorem missionOne_ok : identifierOk "mission-1" = true := by decide

def missionOne : Identifier := ⟨"mission-1", missionOne_ok⟩

instance (method : MethodContract) (policy : AdmissionPolicy) : Decidable (Passes method policy) := by
  unfold Passes
  infer_instance

theorem fix_passes : ∀ step ∈ [edit, patch], Passes (fixBy step) (fixPolicy missionOne) := by
  have plain : ∀ step ∈ [edit, patch], cleanRead (fixBy step).toJson = true := by decide +kernel
  intro step inside
  rw [Passes, checkStructureAndTypes, accepted_of_read (plain step inside)]
  revert step
  decide +kernel

def submitFix (step : Identifier) : Operation :=
  .admitMethod ⟨fixBy step, .human, .draft⟩ .human (fixPolicy missionOne)

theorem fix_admissible {step : Identifier} (inside : step ∈ [edit, patch]) :
    Admissible ⟨fixBy step, .human, .draft⟩ .human (fixPolicy missionOne) :=
  ⟨by simp, rfl, fix_passes step inside⟩

theorem after_submitFix {step : Identifier} (inside : step ∈ [edit, patch]) :
    (after fixHashes (fun _ => true) [submitFix step]).definitions =
      [((fixBy step).methodRef fixHashes, fixBy step)] := by
  rcases admit_cases fixHashes (fun _ => true) {} ⟨fixBy step, .human, .draft⟩ .human
    (fixPolicy missionOne) with ⟨_, ok⟩ | ⟨refusal, decided, _⟩
  · simp only [after_singleton, submitFix, Operation.apply, ok]
    rfl
  · rw [(refusalOf_eq_none fixHashes).mpr ⟨fix_admissible inside, by simp [ClashFree]⟩] at decided
    cases decided

/-- Other bytes at the same version are admitted beside the first. -/
theorem changed_bytes_admitted :
    ¬ ∀ before later, [submitFix edit, submitFix patch] = before ++ later →
      Immutable fixHashes (after fixHashes (fun _ => true) before) := by
  intro kept
  have one := (kept [submitFix edit] [submitFix patch] rfl).oneBody
  have next := (kept ([submitFix edit] ++ [submitFix patch]) [] rfl).oneBody
  have stored := @after_submitFix edit (by simp)
  rw [after_concat] at next
  generalize after fixHashes (fun _ => true) [submitFix edit] = registry at one next stored
  have fresh : Fresh fixHashes registry (submitFix patch) :=
    fresh_of_oneBody fixHashes (fun _ => true) one next
  have known : (fixBy edit).methodRef fixHashes ∈ keys registry.definitions := by
    rw [stored]
    exact List.mem_singleton_self _
  have same := fresh (fix_admissible (by simp)) _ known rfl rfl
  exact absurd same (by decide)

end Registry
