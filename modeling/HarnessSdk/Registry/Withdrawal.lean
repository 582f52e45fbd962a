import HarnessSdk.Registry.Versions

/-! When a submission leaves the lifecycle of what is registered alone: suspended and retired
methods stay withdrawn over a whole run. -/
namespace Registry
open PyDict PyText Checks Workflow Contracts Transitions
open Planning (MethodRegistryStatus)

section
variable (contentHashOf : Json → HashHex) (printable : Char → Bool)

section
variable (registry : MethodRegistry)

def Accepts (proposal : MethodProposal) (author : RegistryAuthor)
    (policy : AdmissionPolicy) : Prop :=
  Admissible proposal author policy ∧ ClashFree contentHashOf registry proposal.method

/-- A submission of registered bytes finds what it would write: an acceptance finds the trial of the
same mission, a refusal finds a refusal. A record is restored over a withdrawn one only with its
status, and no retired method is suspended. -/
def Careful : Operation → Prop
  | .admitMethod proposal author policy => ∀ registration,
      get? registry.registrations (proposal.method.methodRef contentHashOf) = some registration →
      (Accepts contentHashOf registry proposal author policy →
        registration.status = .trialAdmitted ∧
          registration.trialScopeMission = some policy.missionId) ∧
      (¬ Accepts contentHashOf registry proposal author policy →
        registration.status = .rejected ∧ registration.trialScopeMission = none)
  | .restore contract record => ∀ registration,
      get? registry.registrations (contract.methodRef contentHashOf) = some registration →
      registration.status = .suspended ∨ registration.status = .retired →
      record.status = registration.status
  | .suspend ref _ => ∀ registration, get? registry.registrations ref = some registration →
      registration.status ≠ .retired
  | _ => True

def MethodRegistry.statusOf (ref : MethodRef) :
    Option MethodRegistryStatus :=
  (get? registry.registrations ref).map (·.status)

def MethodRegistry.Offers (ref : MethodRef) : Prop :=
  ∃ goal mission found, registry.candidatesFor goal mission = .ok found ∧
    ∃ candidate ∈ found, candidate.methodRef = ref

def Reinstates (ref : MethodRef) (op : Operation) : Prop :=
  ∃ mission reason next, op = .reinstate ref mission reason ∧
    registry.reinstate ref mission reason = .ok next

end

structure KeepsLifecycle (operations : List Operation) : Prop where
  suspended : ∀ before middle later ref, operations = before ++ middle ++ later →
    (after contentHashOf printable before).statusOf ref = some .suspended →
    (∀ pre op post, middle = pre ++ op :: post →
      ¬ Reinstates (after contentHashOf printable (before ++ pre)) ref op) →
    ¬ (after contentHashOf printable (before ++ middle)).Offers ref
  retired : ∀ before middle later ref, operations = before ++ middle ++ later →
    (after contentHashOf printable before).statusOf ref = some .retired →
    ¬ (after contentHashOf printable (before ++ middle)).Offers ref
  resubmitted : ∀ before proposal author policy later registration,
    operations = before ++ .admitMethod proposal author policy :: later →
    get? (after contentHashOf printable before).registrations
      (proposal.method.methodRef contentHashOf) = some registration →
    ∃ kept, get? (after contentHashOf printable
        (before ++ [.admitMethod proposal author policy])).registrations
        (proposal.method.methodRef contentHashOf) = some kept ∧
      kept.status = registration.status ∧
      kept.trialScopeMission = registration.trialScopeMission
  vouched : ∀ before later goal mission found, operations = before ++ later →
    (after contentHashOf printable before).candidatesFor goal mission = .ok found →
    ∀ candidate ∈ found, ∃ earlier op rest, before = earlier ++ op :: rest ∧
      Defines contentHashOf (after contentHashOf printable earlier) op candidate.method

variable {registry : MethodRegistry} {ref : MethodRef} {status : MethodRegistryStatus}
  {proposal : MethodProposal} {author : RegistryAuthor} {policy : AdmissionPolicy}
  {registration : MethodRegistration}

theorem not_offered_of_status (found : registry.statusOf ref = some status)
    (withdrawn : status = .suspended ∨ status = .retired) : ¬ registry.Offers ref := by
  rintro ⟨goal, mission, candidates, ok, candidate, inside, rfl⟩
  obtain ⟨_, _, retrievable, registered⟩ := mem_candidatesFor ok inside
  rw [MethodRegistry.statusOf, registered, Option.map_some, Option.some.injEq] at found
  rw [MethodRegistry.retrievable, registered] at retrievable
  rcases withdrawn with rfl | rfl
  · simp [found] at retrievable
  · simp [found] at retrievable

theorem accepts_iff :
    Accepts contentHashOf registry proposal author policy ↔
      registry.refusalOf contentHashOf proposal author policy = none :=
  (refusalOf_eq_none contentHashOf).symm

theorem statusOf_set {next : MethodRegistry} {other : MethodRef}
    (written : next.registrations = set registry.registrations other registration) :
    next.statusOf ref = if other = ref then some registration.status else registry.statusOf ref := by
  unfold MethodRegistry.statusOf
  rw [written, get?_set]
  split <;> rfl

theorem withdrawn_apply {op : Operation} (careful : Careful contentHashOf registry op)
    (found : registry.statusOf ref = some status)
    (withdrawn : status = .suspended ∨ status = .retired)
    (stays : status = .suspended → ¬ Reinstates registry ref op) :
    ∃ next, (op.apply contentHashOf printable registry).statusOf ref = some next ∧
      (next = status ∨ next = .retired) := by
  obtain ⟨stored, registered, here⟩ := Option.map_eq_some_iff.mp found
  have step := step_apply contentHashOf printable registry op
  generalize op.apply contentHashOf printable registry = after at step
  -- A write under another identity leaves this one alone.
  have elsewhere : ∀ {next : MethodRegistry} {other registration},
      next.registrations = set registry.registrations other registration →
      (other = ref → ∃ reached, registration.status = reached ∧
        (reached = status ∨ reached = .retired)) →
      ∃ reached, next.statusOf ref = some reached ∧ (reached = status ∨ reached = .retired) := by
    intro next other registration written same
    rw [statusOf_set written]
    by_cases hit : other = ref
    · obtain ⟨reached, equal, fine⟩ := same hit
      exact ⟨reached, by rw [if_pos hit, equal], fine⟩
    · exact ⟨status, by rw [if_neg hit, found], Or.inl rfl⟩
  cases step with
  | accepted admissible clear =>
    refine elsewhere rfl fun hit => ?_
    subst hit
    have trial := ((careful stored registered).1 ⟨admissible, clear⟩).1
    rw [← here, trial] at withdrawn
    simp at withdrawn
  | @refused proposal author policy refusal problem =>
    refine elsewhere rfl fun hit => ?_
    subst hit
    have refused : ¬ Accepts contentHashOf registry proposal author policy := by
      rw [accepts_iff, problem]
      simp
    have rejected := ((careful stored registered).2 refused).1
    rw [← here, rejected] at withdrawn
    simp at withdrawn
  | restored ok =>
    have made := ((restore_eq_ok contentHashOf).mp ok).2.2.2
    refine elsewhere (by rw [made]) fun hit => ?_
    subst hit
    refine ⟨status, ?_, Or.inl rfl⟩
    rw [careful stored registered (by rw [here]; exact withdrawn), here]
  | @suspended other _ registration known =>
    refine elsewhere rfl fun hit => ⟨.suspended, rfl, ?_⟩
    subst hit
    have live := careful registration known
    rw [registered, Option.some.injEq] at known
    subst known
    rcases withdrawn with was | was
    · exact Or.inl was.symm
    · exact absurd (here.trans was) live
  | retired _ => exact elsewhere rfl fun _ => ⟨.retired, rfl, Or.inr rfl⟩
  | @reinstated other mission reason registration scope _ known suspended ok made =>
    refine elsewhere (by rw [made]) fun hit => ?_
    subst hit
    rw [registered, Option.some.injEq] at known
    subst known
    have was : status = .suspended := here.symm.trans suspended
    exact absurd ⟨mission, reason, _, rfl, ok⟩ (stays was)
  | rescoped => exact ⟨status, found, Or.inl rfl⟩
  | used => exact ⟨status, found, Or.inl rfl⟩
  | unrecorded _ => exact ⟨status, found, Or.inl rfl⟩
  | nothing _ => exact ⟨status, found, Or.inl rfl⟩

theorem resubmission_apply
    (careful : Careful contentHashOf registry (.admitMethod proposal author policy))
    (found : get? registry.registrations (proposal.method.methodRef contentHashOf) = some
      registration) :
    ∃ kept, get? ((Operation.admitMethod proposal author policy).apply contentHashOf printable
        registry).registrations (proposal.method.methodRef contentHashOf) = some kept ∧
      kept.status = registration.status ∧
      kept.trialScopeMission = registration.trialScopeMission := by
  rcases admit_cases contentHashOf printable registry proposal author policy with
    ⟨decided, ok⟩ | ⟨refusal, decided, ok | ⟨raised, ok⟩⟩
  · simp only [Operation.apply, ok]
    obtain ⟨status, scope⟩ :=
      (careful registration found).1 ((accepts_iff contentHashOf).mpr decided)
    exact ⟨_, get?_set_self _ _ _, status.symm, scope.symm⟩
  · simp only [Operation.apply, ok]
    have refused : ¬ Accepts contentHashOf registry proposal author policy := by
      rw [accepts_iff, decided]
      simp
    obtain ⟨status, scope⟩ := (careful registration found).2 refused
    exact ⟨_, get?_set_self _ _ _, status.symm, scope.symm⟩
  · simp only [Operation.apply, ok]
    exact ⟨registration, found, rfl, rfl⟩

theorem defined_by (before : List Operation) {key : MethodRef} {method : MethodContract}
    (stored : get? (after contentHashOf printable before).definitions key = some method) :
    ∃ earlier op rest, before = earlier ++ op :: rest ∧
      Defines contentHashOf (after contentHashOf printable earlier) op method := by
  induction before using List.reverseRecOn with
  | nil => cases stored
  | append_singleton before op ih =>
    have older : get? (after contentHashOf printable before).definitions key = some method →
        ∃ earlier op' rest, before ++ [op] = earlier ++ op' :: rest ∧
          Defines contentHashOf (after contentHashOf printable earlier) op' method := by
      intro there
      obtain ⟨earlier, op', rest, split, defines⟩ := ih there
      exact ⟨earlier, op', rest ++ [op], by simp [split], defines⟩
    rw [after_concat] at stored
    rcases definitions_apply contentHashOf printable (after contentHashOf printable before) op with
      ⟨same, _⟩ | ⟨written, defines, write, _⟩
    · rw [same] at stored
      exact older stored
    · rw [write, get?_set] at stored
      split at stored
      · cases stored
        exact ⟨before, op, [], rfl, defines⟩
      · exact older stored

section
variable {operations : List Operation}
  (careful : ∀ before op later, operations = before ++ op :: later →
    Careful contentHashOf (after contentHashOf printable before) op)
include careful

theorem withdrawn_run (before : List Operation) {ref : MethodRef} {status : MethodRegistryStatus}
    (found : (after contentHashOf printable before).statusOf ref = some status)
    (withdrawn : status = .suspended ∨ status = .retired) (middle : List Operation) :
    ∀ later, operations = before ++ middle ++ later →
    (status = .suspended → ∀ pre op post, middle = pre ++ op :: post →
      ¬ Reinstates (after contentHashOf printable (before ++ pre)) ref op) →
    ∃ reached, (after contentHashOf printable (before ++ middle)).statusOf ref = some reached ∧
      (reached = status ∨ reached = .retired) := by
  induction middle using List.reverseRecOn with
  | nil =>
    intro _ _ _
    exact ⟨status, by rwa [List.append_nil], Or.inl rfl⟩
  | append_singleton middle op ih =>
    intro later split quiet
    obtain ⟨reached, here, fine⟩ := ih (op :: later) (by simp [split]) (by
      intro suspended pre op' post inside
      exact quiet suspended pre op' (post ++ [op]) (by simp [inside]))
    have stays : reached = .suspended →
        ¬ Reinstates (after contentHashOf printable (before ++ middle)) ref op := by
      intro suspended
      rcases fine with same | retired
      · exact quiet (same.symm.trans suspended) middle op [] rfl
      · rw [retired] at suspended
        cases suspended
    have gone : reached = .suspended ∨ reached = .retired := by
      rcases fine with same | retired
      · rwa [same]
      · exact Or.inr retired
    rw [← List.append_assoc, after_concat]
    obtain ⟨next, there, step⟩ := withdrawn_apply contentHashOf printable
      (careful (before ++ middle) op later (by simp [split])) here gone stays
    refine ⟨next, there, ?_⟩
    rcases step with same | retired
    · rw [same]
      exact fine
    · exact Or.inr retired

/-- In a run of careful operations submissions change no lifecycle. -/
theorem lifecycle_kept : KeepsLifecycle contentHashOf printable operations := by
  constructor
  · intro before middle later ref split found quiet
    obtain ⟨reached, there, fine⟩ := withdrawn_run contentHashOf printable careful before found
      (Or.inl rfl) middle later split fun _ => quiet
    exact not_offered_of_status there fine
  · intro before middle later ref split found
    obtain ⟨reached, there, fine⟩ := withdrawn_run contentHashOf printable careful before found
      (Or.inr rfl) middle later split (by simp)
    exact not_offered_of_status there (Or.inr (by simpa using fine))
  · intro before proposal author policy later registration split found
    rw [after_concat]
    exact resubmission_apply contentHashOf printable (careful before _ later split) found
  · intro before later goal mission found _ ok candidate inside
    exact defined_by contentHashOf printable before (mem_candidatesFor ok inside).2.1

end

end

abbrev fixRef : MethodRef := (fixBy edit).methodRef fixHashes

def suspendFix : Operation := .suspend fixRef (.str "a counter-example was recorded")

/-- The same bytes, with a status no model may claim. -/
def claimFix : Operation :=
  .admitMethod ⟨fixBy edit, .model, .admitted⟩ .model (fixPolicy missionOne)

abbrev everyPrintable : Char → Bool := fun _ => true

variable {registry : MethodRegistry} (contentHashOf : Json → HashHex) (printable : Char → Bool)

theorem submitFix_apply (clear : ClashFree fixHashes registry (fixBy edit)) :
    (submitFix edit).apply fixHashes everyPrintable registry =
      (registry.accept fixHashes everyPrintable (fixBy edit) .human (fixPolicy missionOne)).2 := by
  rcases admit_cases fixHashes everyPrintable registry ⟨fixBy edit, .human, .draft⟩ .human
    (fixPolicy missionOne) with ⟨_, ok⟩ | ⟨refusal, decided, _⟩
  · simp only [submitFix, Operation.apply, ok]
  · rw [(refusalOf_eq_none fixHashes).mpr ⟨fix_admissible (by simp), clear⟩] at decided
    cases decided

theorem sameText_self (payload : Json) : payload.sameText payload = true := by
  simp [Json.sameText]

def FixAlone (registry : MethodRegistry) : Prop :=
  ∀ method, get? registry.definitions fixRef = some method → method = fixBy edit

theorem clash_free_of_alone (alone : FixAlone registry) :
    ClashFree fixHashes registry (fixBy edit) := by
  intro existing there
  rw [alone existing there]
  exact sameText_self _

theorem accept_definitions (registry : MethodRegistry) (method : MethodContract)
    (author : RegistryAuthor) (policy : AdmissionPolicy) :
    (registry.accept contentHashOf printable method author policy).2.definitions =
      set registry.definitions (method.methodRef contentHashOf) method := rfl

theorem accept_registrations (registry : MethodRegistry) (method : MethodContract)
    (author : RegistryAuthor) (policy : AdmissionPolicy) :
    (registry.accept contentHashOf printable method author policy).2.registrations =
      set registry.registrations (method.methodRef contentHashOf)
        (MethodRegistry.trial (method.methodRef contentHashOf)
          (some ((MethodRegistry.acceptedReceipt contentHashOf method author policy).receiptRef
            contentHashOf printable)) policy.missionId) := rfl

theorem submitFix_twice {registry : MethodRegistry} (alone : FixAlone registry) :
    FixAlone ((submitFix edit).apply fixHashes everyPrintable registry) ∧
      ∃ receipt, get? ((submitFix edit).apply fixHashes everyPrintable registry).registrations fixRef
        = some (MethodRegistry.trial fixRef receipt missionOne) := by
  rw [submitFix_apply (clash_free_of_alone alone)]
  constructor
  · intro method there
    rw [accept_definitions, get?_set_self] at there
    exact (Option.some.inj there).symm
  · rw [accept_registrations, get?_set_self]
    exact ⟨_, rfl⟩

theorem suspendFix_apply {registration : MethodRegistration}
    (found : get? registry.registrations fixRef = some registration) :
    (suspendFix.apply fixHashes everyPrintable registry).definitions = registry.definitions ∧
      (suspendFix.apply fixHashes everyPrintable registry).registrations =
        set registry.registrations fixRef
          (MethodRegistry.settled fixRef .suspended registration.admissionReceiptRef) := by
  have known : registry.requireRegistration fixRef = .ok registration :=
    requireRegistration_eq_ok.mpr found
  simp only [suspendFix, Operation.apply, MethodRegistry.suspend, MethodRegistry.withdraw, known]
  exact ⟨rfl, rfl⟩

/-- A duplicate submission revives a suspended method, and a refused one withdraws an admitted one. -/
theorem resubmission_changes_lifecycle :
    ¬ KeepsLifecycle fixHashes everyPrintable [submitFix edit, suspendFix, submitFix edit] ∧
      ¬ KeepsLifecycle fixHashes everyPrintable [submitFix edit, claimFix] := by
  obtain ⟨alone, receipt, trialed⟩ := @submitFix_twice {} (by simp [FixAlone])
  have start := after_singleton fixHashes everyPrintable (submitFix edit)
  constructor
  · intro kept
    have paused := after_concat fixHashes everyPrintable [submitFix edit] suspendFix
    rw [start] at paused
    have found : get? (after fixHashes everyPrintable
        ([submitFix edit] ++ [suspendFix])).registrations fixRef =
        some (MethodRegistry.settled fixRef .suspended receipt) := by
      rw [paused, (suspendFix_apply trialed).2, get?_set_self]
      rfl
    obtain ⟨registration, there, status, _⟩ := kept.resubmitted [submitFix edit, suspendFix]
      ⟨fixBy edit, .human, .draft⟩ .human (fixPolicy missionOne) [] _ rfl found
    have still : FixAlone (after fixHashes everyPrintable ([submitFix edit] ++ [suspendFix])) := by
      rw [FixAlone, paused, (suspendFix_apply trialed).1]
      exact alone
    obtain ⟨_, _, again⟩ := submitFix_twice still
    have same := after_concat fixHashes everyPrintable ([submitFix edit] ++ [suspendFix])
      (submitFix edit)
    rw [← same] at again
    have both := there.symm.trans again
    rw [Option.some.injEq] at both
    rw [both] at status
    cases status
  · intro kept
    rw [← start] at trialed
    obtain ⟨registration, there, status, _⟩ := kept.resubmitted [submitFix edit]
      ⟨fixBy edit, .model, .admitted⟩ .model (fixPolicy missionOne) [] _ rfl trialed
    rcases admit_cases fixHashes everyPrintable (after fixHashes everyPrintable [submitFix edit])
      ⟨fixBy edit, .model, .admitted⟩ .model (fixPolicy missionOne) with
      ⟨decided, _⟩ | ⟨refusal, decided, ok | ⟨raised, ok⟩⟩
    · cases decided
    · rw [after_concat] at there
      simp only [Operation.apply, ok, MethodRegistry.refuse, get?_set_self, Option.some.injEq] at there
      rw [← there] at status
      cases status
    · cases decided
      cases ok

theorem careful_of_steps {contentHashOf : Json → HashHex} {printable : Char → Bool}
    (operations : List Operation) (start : List Operation)
    (steps : ∀ (n : Nat) (op : Operation), operations[n]? = some op →
      Careful contentHashOf (after contentHashOf printable (start ++ operations.take n)) op) :
    ∀ before op later, operations = before ++ op :: later →
      Careful contentHashOf (after contentHashOf printable (start ++ before)) op := by
  rintro before op later rfl
  simpa using steps before.length op (by simp)

/-- The fix is submitted twice for its mission, suspended and retired. -/
theorem lifecycle_kept_at_fix :
    KeepsLifecycle fixHashes everyPrintable
      [submitFix edit, submitFix edit, suspendFix, .retire fixRef (.str "superseded")] := by
  obtain ⟨alone, receipt, trialed⟩ := @submitFix_twice {} (by simp [FixAlone])
  obtain ⟨_, receipt', trialed'⟩ := submitFix_twice alone
  have once := after_singleton fixHashes everyPrintable (submitFix edit)
  have twice := after_concat fixHashes everyPrintable [submitFix edit] (submitFix edit)
  rw [once] at twice
  apply lifecycle_kept
  apply careful_of_steps _ []
  intro n op there
  match n with
  | 0 =>
    cases there
    intro registration found
    cases found
  | 1 =>
    cases there
    rw [List.nil_append, List.take_succ_cons, List.take_zero, once]
    intro registration found
    have same := trialed.symm.trans found
    rw [Option.some.injEq] at same
    subst same
    exact ⟨fun _ => ⟨rfl, rfl⟩,
      fun refused => absurd ⟨fix_admissible (by simp), clash_free_of_alone alone⟩ refused⟩
  | 2 =>
    cases there
    rw [List.nil_append, List.take_succ_cons, List.take_succ_cons, List.take_zero]
    rw [List.singleton_append] at twice
    rw [twice]
    intro registration found
    have same := trialed'.symm.trans found
    rw [Option.some.injEq] at same
    subst same
    simp [MethodRegistry.trial]
  | 3 =>
    cases there
    trivial

end Registry
