import HarnessSdk.Acceptance.Formula

/-! The decision on a review: check gates, grades and the receipts that an acceptance consumes. -/
namespace Acceptance
open PyDict PyText Checks

structure AssuranceRef where
  kind : String
  id : String
  revision : Nat
  contentHash : String
deriving DecidableEq

inductive ExecutionState
  | succeeded
  | error
  | cancelled
  | notRun
  | running
deriving DecidableEq

structure CheckResult where
  spec : AssuranceRef
  receipt : AssuranceRef
  executionState : ExecutionState
  assertionGrade : Grade
  sourceValid : Bool
deriving DecidableEq

def CheckResult.effective (result : CheckResult) : Grade :=
  if result.sourceValid = true ∧ result.executionState = .succeeded then result.assertionGrade
  else .unknown

abbrev Results := AssuranceRef → Option CheckResult

inductive CheckMode
  | semantic
  | checked
deriving DecidableEq

structure CriterionPolicy where
  criterionId : String
  mode : CheckMode
  anyCheckSets : List (List AssuranceRef)

structure CheckGate where
  /-- None where checks do not apply. -/
  grade : Option Grade
  consumed : List AssuranceRef
  reason : String

structure Assessment where
  criterionId : String
  verdict : Grade

inductive Severity
  | blocker
  | warning
  | info
deriving DecidableEq

structure Finding where
  criterionId : String
  severity : Severity

inductive ReplyVerdict
  | accept
  | rework
  | inconclusive
  | rejected
deriving DecidableEq

structure ReviewReply where
  verdict : ReplyVerdict
  assessments : List Assessment
  findings : List Finding

structure ReviewDecision where
  acceptable : Bool
  effectiveGrades : Dict String Grade
  successWitness : List String
  consumedReceipts : List AssuranceRef
  reasons : List String
deriving DecidableEq

structure Judged where
  name : String
  gate : CheckGate
  grade : Grade

section
variable (fingerprint : AssuranceRef → String)

def inOrder (refs : List AssuranceRef) : List AssuranceRef := sortedBy fingerprint (fromkeys refs)

def gradeGroup (results : Results) (group : List AssuranceRef) :
    Except AssuranceError (Grade × List AssuranceRef) := do
  require (∀ spec ∈ group, ∀ row ∈ results spec, row.spec = spec) ⟨"CHECK_RESULT_IDENTITY", ""⟩
  let grade ← triAll (group.map fun spec => ((results spec).map (·.effective)).getD .unknown)
  .ok (grade, inOrder fingerprint ((group.filterMap results).map (·.receipt)))

def gateOf (evaluated : List (Grade × List AssuranceRef)) : Except AssuranceError CheckGate :=
  match evaluated.find? (·.1 = .pass) with
  | some group => .ok ⟨some .pass, group.2, "CHECK_GROUP_SATISFIED"⟩
  | none => do
    let grade ← triAny (evaluated.map (·.1))
    .ok ⟨some grade, inOrder fingerprint (evaluated.flatMap (·.2)),
      if grade = .fail then "CHECK_GROUPS_FAILED" else "CHECK_EVIDENCE_INCOMPLETE"⟩

def evaluateCheckGate (policy : CriterionPolicy) (results : Results) :
    Except AssuranceError CheckGate :=
  match policy.mode with
  | .semantic => .ok ⟨none, [], "CHECK_NOT_APPLICABLE"⟩
  | .checked => do
    let evaluated ← policy.anyCheckSets.mapM (gradeGroup fingerprint results)
    gateOf fingerprint evaluated

def gradeUnder (verdict : Grade) (gate : CheckGate) : Except AssuranceError Grade :=
  match gate.grade with
  | none => .ok verdict
  | some grade => triAll [verdict, grade]

def judge (policies : Dict String CriterionPolicy) (results : Results)
    (given : List Assessment × Assessment) : Except AssuranceError Judged :=
  match get? policies given.2.criterionId with
  | none => .error ⟨"CHECK_POLICY_UNRESOLVED", ""⟩
  | some policy => do
    require (policy.criterionId = given.2.criterionId) ⟨"CHECK_POLICY_UNRESOLVED", ""⟩
    require (given.2.criterionId ∉ given.1.map (·.criterionId)) ⟨"DUPLICATE_CRITERION", ""⟩
    let gate ← evaluateCheckGate fingerprint policy results
    let grade ← gradeUnder given.2.verdict gate
    .ok ⟨given.2.criterionId, gate, grade⟩

def graded (findings : List Finding) (j : Judged) : Grade :=
  if ∃ f ∈ findings, f.criterionId = j.name ∧ f.severity = .blocker then .fail else j.grade

def withMandatory (mandatory : List String) (grades : Dict String Grade) (x : Graded) :
    Except AssuranceError Graded :=
  if mandatory = [] then .ok x
  else do
    let result ← triAll (x.1 :: mandatory.filterMap (get? grades))
    .ok (result, if result = .pass then x.2 ++ mandatory else x.2)

def decideReview (reply : ReviewReply) (formula : Formula) (mandatory : List String)
    (policies : Dict String CriterionPolicy) (results : Results) :
    Except AssuranceError ReviewDecision := do
  require (mandatory.Nodup ∧ mandatory ⊆ keys policies) ⟨"MANDATORY_CRITERIA_INVALID", ""⟩
  let judged ← (reply.assessments.inits.zip reply.assessments).mapM
    (judge fingerprint policies results)
  let names := judged.map (·.name)
  require (names ⊆ keys policies ∧ keys policies ⊆ names) ⟨"POLICY_CATALOGUE_MISMATCH", ""⟩
  require (∀ f ∈ reply.findings, f.criterionId ∈ names) ⟨"FINDING_SCOPE", ""⟩
  let grades := judged.map fun j => (j.name, graded reply.findings j)
  let evaluated ← formula.evaluate grades
  let (result, witness) ← withMandatory mandatory grades evaluated
  let acceptable := decide (reply.verdict = .accept ∧ result = .pass)
  let selected := if acceptable then witness else names
  .ok {
    acceptable
    effectiveGrades := grades
    successWitness := if acceptable then witness else []
    consumedReceipts := inOrder fingerprint (selected.flatMap fun name =>
      ((judged.find? (·.name = name)).map (·.gate.consumed)).getD [])
    reasons := judged.map fun j => j.name ++ ":" ++ j.gate.reason }

end

variable {grades : List Grade} {grade : Grade} {judged' : List Judged} (findings : List Finding)

theorem triAll_eq_ok (ok : triAll grades = .ok grade) :
    grades ≠ [] ∧ (grade = .pass ↔ ∀ g ∈ grades, g = .pass) := by
  unfold triAll at ok
  split at ok
  · cases ok
  next some =>
    refine ⟨some, ?_⟩
    split at ok
    next fails =>
      cases ok
      exact ⟨nofun, fun all => by cases all _ fails⟩
    next =>
      split at ok
      next all =>
        cases ok
        exact ⟨fun _ => all, fun _ => rfl⟩
      next open_ =>
        cases ok
        exact ⟨nofun, fun all => absurd all open_⟩

theorem exists_triAll {grades : List Grade} (some : grades ≠ []) :
    ∃ grade, triAll grades = .ok grade := by
  unfold triAll
  rw [if_neg some]
  split
  · exact ⟨_, rfl⟩
  · split <;> exact ⟨_, rfl⟩

theorem exists_triAny {grades : List Grade} (some : grades ≠ []) (none : .pass ∉ grades) :
    ∃ grade, triAny grades = .ok grade ∧ grade ≠ .pass := by
  unfold triAny
  rw [if_neg some, if_neg none]
  split
  · exact ⟨_, rfl, nofun⟩
  · exact ⟨_, rfl, nofun⟩

/-- What passes later passed before, and what passed stays as it is if what it rests on is kept. -/
structure Follows {α : Type} (passes kept : α → Prop) (x x' : α) : Prop where
  before : passes x' → passes x
  stays : passes x → kept x → x' = x

theorem find?_follows {α : Type} {passes kept : α → Prop} [DecidablePred passes] {xs xs' : List α}
    (each : List.Forall₂ (Follows passes kept) xs xs') :
    (xs.find? (passes ·) = none → xs'.find? (passes ·) = none) ∧
      ∀ x, xs.find? (passes ·) = some x → kept x → xs'.find? (passes ·) = some x := by
  induction each with
  | nil => exact ⟨fun _ => rfl, nofun⟩
  | @cons x x' xs xs' here there ih =>
    rw [List.find?_cons, List.find?_cons]
    by_cases pass : passes x
    · rw [decide_eq_true pass]
      refine ⟨nofun, fun y same kept => ?_⟩
      cases same
      rw [here.stays pass kept, decide_eq_true pass]
    · rw [decide_eq_false pass, decide_eq_false (mt here.before pass)]
      exact ih

theorem choice_follows {ε α β : Type} {passes kept : α → Prop} [DecidablePred passes]
    {passes' kept' : β → Prop} {choose : List α → Except ε β} {result : α → β} {xs xs' : List α}
    {y : β} (some : xs ≠ []) (each : List.Forall₂ (Follows passes kept) xs xs')
    (hit : ∀ xs x, xs.find? (passes ·) = .some x → choose xs = .ok (result x) ∧ passes' (result x))
    (miss : ∀ xs, xs ≠ [] → xs.find? (passes ·) = none → ∃ y, choose xs = .ok y ∧ ¬ passes' y)
    (keep : ∀ x, kept' (result x) → kept x) (ok : choose xs = .ok y) :
    ∃ y', choose xs' = .ok y' ∧ Follows passes' kept' y y' := by
  obtain ⟨none_, some_⟩ := find?_follows each
  have some' : xs' ≠ [] := by
    rintro rfl
    cases each
    exact some rfl
  cases found : xs.find? (passes ·) with
  | none =>
    obtain ⟨_, chosen, other⟩ := miss xs some found
    obtain ⟨y', chosen', other'⟩ := miss xs' some' (none_ found)
    cases ok.symm.trans chosen
    exact ⟨y', chosen', fun pass => absurd pass other', fun pass => absurd pass other⟩
  | some x =>
    obtain ⟨chosen, pass⟩ := hit xs x found
    cases ok.symm.trans chosen
    by_cases still : kept x
    · exact ⟨_, (hit xs' x (some_ x found still)).1, fun _ => pass, fun _ _ => rfl⟩
    · cases found' : xs'.find? (passes ·) with
      | none =>
        obtain ⟨y', chosen', _⟩ := miss xs' some' found'
        exact ⟨y', chosen', fun _ => pass, fun _ all => absurd (keep x all) still⟩
      | some x' =>
        exact ⟨_, (hit xs' x' found').1, fun _ => pass, fun _ all => absurd (keep x all) still⟩

theorem forall_follows {α : Type} {passes kept : α → Prop} {xs xs' : List α}
    (each : List.Forall₂ (Follows passes kept) xs xs') :
    Follows (fun xs => ∀ x ∈ xs, passes x) (fun xs => ∀ x ∈ xs, kept x) xs xs' := by
  induction each with
  | nil => exact ⟨id, fun _ _ => rfl⟩
  | cons here _ ih =>
    refine ⟨fun all => ?_, fun all still => ?_⟩
    · rw [List.forall_mem_cons] at all ⊢
      exact ⟨here.before all.1, ih.before all.2⟩
    · rw [List.forall_mem_cons] at all still
      rw [here.stays all.1 still.1, ih.stays all.2 still.2]

section
variable {fingerprint : AssuranceRef → String} {results : Results} {consumed : List AssuranceRef}

def keeping (results : Results) (consumed : List AssuranceRef) : Results :=
  fun spec => (results spec).filter (·.receipt ∈ consumed)

@[simp] theorem mem_inOrder {refs : List AssuranceRef} {ref : AssuranceRef} :
    ref ∈ inOrder fingerprint refs ↔ ref ∈ refs := by
  rw [inOrder, mem_sortedBy, mem_fromkeys]

variable {group : List AssuranceRef} {x : Grade × List AssuranceRef}

section
variable (ok : gradeGroup fingerprint results group = .ok x)
include ok

theorem gradeGroup_pass (pass : x.1 = .pass) :
    ∀ spec ∈ group, ∃ row, results spec = some row ∧ row.effective = .pass ∧ row.receipt ∈ x.2 := by
  obtain ⟨_, ok⟩ := then_eq_ok.mp ok
  obtain ⟨grade, decided, ok⟩ := bind_eq_ok.mp ok
  cases ok
  intro spec inside
  have effective := (triAll_eq_ok decided).2.mp pass _ (List.mem_map_of_mem inside)
  cases found : results spec with
  | none => simp [found] at effective
  | some row =>
    refine ⟨row, rfl, by simpa [found] using effective, ?_⟩
    rw [mem_inOrder]
    exact List.mem_map_of_mem (List.mem_filterMap.mpr ⟨spec, inside, found⟩)

theorem gradeGroup_receipts
    {receipt : AssuranceRef} (inside : receipt ∈ x.2) :
    ∃ spec ∈ group, ∃ row, results spec = some row ∧ row.receipt = receipt := by
  obtain ⟨_, ok⟩ := then_eq_ok.mp ok
  obtain ⟨grade, _, ok⟩ := bind_eq_ok.mp ok
  cases ok
  rw [mem_inOrder] at inside
  obtain ⟨row, there, same⟩ := List.mem_map.mp inside
  obtain ⟨spec, listed, found⟩ := List.mem_filterMap.mp there
  exact ⟨spec, listed, row, found, same⟩

end

theorem gradeGroup_congr {results' : Results}
    (same : ∀ spec ∈ group, results' spec = results spec) :
    gradeGroup fingerprint results' group = gradeGroup fingerprint results group := by
  have grades := List.map_congr_left fun spec inside =>
    congrArg (fun row => (row.map CheckResult.effective).getD .unknown) (same spec inside)
  have rows := List.filterMap_congr same
  have identity : (∀ spec ∈ group, ∀ row ∈ results' spec, row.spec = spec) ↔
      ∀ spec ∈ group, ∀ row ∈ results spec, row.spec = spec :=
    forall₂_congr fun spec inside => by rw [same spec inside]
  simp only [gradeGroup, grades, rows, identity]

theorem of_keeping {spec : AssuranceRef} {row : CheckResult}
    (found : keeping results consumed spec = some row) : results spec = some row :=
  (Option.filter_eq_some_iff.mp found).1

theorem gradeGroup_follows {group : List AssuranceRef} {x : Grade × List AssuranceRef}
    (ok : gradeGroup fingerprint results group = .ok x) :
    ∃ x', gradeGroup fingerprint (keeping results consumed) group = .ok x' ∧
      Follows (·.1 = .pass) (fun x => ∀ ref ∈ x.2, ref ∈ consumed) x x' := by
  have passes := gradeGroup_pass ok
  have whole := ok
  obtain ⟨identity, ok⟩ := then_eq_ok.mp ok
  obtain ⟨grade, decided, ok⟩ := bind_eq_ok.mp ok
  cases ok
  obtain ⟨some, all⟩ := triAll_eq_ok decided
  obtain ⟨x', ok'⟩ : ∃ x', gradeGroup fingerprint (keeping results consumed) group = .ok x' := by
    obtain ⟨grade', decided'⟩ := @exists_triAll (group.map fun spec =>
      ((keeping results consumed spec).map (·.effective)).getD .unknown) (by simpa using some)
    refine ⟨_, then_eq_ok.mpr ⟨?_, bind_eq_ok.mpr ⟨grade', decided', rfl⟩⟩⟩
    rw [require_eq_ok] at identity ⊢
    exact fun spec inside row there => identity spec inside row (of_keeping there)
  refine ⟨x', ok', fun pass => ?_, fun pass kept => ?_⟩
  · refine all.mpr (List.forall_mem_map.mpr fun spec inside => ?_)
    obtain ⟨row, there, effective, _⟩ := gradeGroup_pass ok' pass spec inside
    simp [of_keeping there, effective]
  · have same : gradeGroup fingerprint (keeping results consumed) group =
        gradeGroup fingerprint results group := gradeGroup_congr fun spec inside => by
      obtain ⟨row, there, _, listed⟩ := passes pass spec inside
      simp [keeping, there, kept _ listed]
    exact Except.ok.inj (ok'.symm.trans (same.trans whole))

def Opens (gate : CheckGate) : Prop := ∀ grade ∈ gate.grade, grade = .pass

theorem gateOf_hit (evaluated : List (Grade × List AssuranceRef)) (group : Grade × List AssuranceRef)
    (found : evaluated.find? (·.1 = .pass) = some group) :
    gateOf fingerprint evaluated = .ok ⟨some .pass, group.2, "CHECK_GROUP_SATISFIED"⟩ ∧
      Opens ⟨some .pass, group.2, "CHECK_GROUP_SATISFIED"⟩ := by
  rw [gateOf, found]
  exact ⟨rfl, by rintro _ ⟨⟩; rfl⟩

theorem pass_notMem {γ : Type} {evaluated : List (Grade × γ)}
    (missing : evaluated.find? (·.1 = .pass) = none) : .pass ∉ evaluated.map (·.1) := by
  rintro passes
  obtain ⟨x, inside, pass⟩ := List.mem_map.mp passes
  exact List.find?_eq_none.mp missing x inside (decide_eq_true pass)

theorem gateOf_miss (evaluated : List (Grade × List AssuranceRef)) (some : evaluated ≠ [])
    (missing : evaluated.find? (·.1 = .pass) = none) :
    ∃ gate, gateOf fingerprint evaluated = .ok gate ∧ ¬ Opens gate := by
  obtain ⟨grade, ok, other⟩ := @exists_triAny (evaluated.map (·.1)) (by simpa using some)
    (pass_notMem missing)
  rw [gateOf, missing]
  exact ⟨_, bind_eq_ok.mpr ⟨grade, ok, rfl⟩, fun opens => other (opens grade rfl)⟩

theorem evaluateCheckGate_follows {policy : CriterionPolicy} {gate : CheckGate}
    (ok : evaluateCheckGate fingerprint policy results = .ok gate) :
    ∃ gate', evaluateCheckGate fingerprint policy (keeping results consumed) = .ok gate' ∧
      Follows Opens (fun gate => ∀ ref ∈ gate.consumed, ref ∈ consumed) gate gate' := by
  unfold evaluateCheckGate at ok ⊢
  split at ok
  · cases ok
    exact ⟨_, rfl, id, fun _ _ => rfl⟩
  · obtain ⟨evaluated, read, ok⟩ := bind_eq_ok.mp ok
    obtain ⟨evaluated', read', each⟩ := mapM_follows read fun group _ _ =>
      @gradeGroup_follows fingerprint results consumed group _
    have some : evaluated ≠ [] := by
      rintro rfl
      cases ok
    have chosen : ∃ gate', gateOf fingerprint evaluated' = .ok gate' ∧
        Follows Opens (fun gate => ∀ ref ∈ gate.consumed, ref ∈ consumed) gate gate' :=
      choice_follows some each gateOf_hit gateOf_miss (fun _ all => all) ok
    obtain ⟨gate', chosen, follows⟩ := chosen
    exact ⟨gate', bind_eq_ok.mpr ⟨_, read', chosen⟩, follows⟩

/-- A criterion judged again: nothing begins to pass, and it stays if its receipts are kept. -/
def Rejudged (consumed : List AssuranceRef) (j j' : Judged) : Prop :=
  j'.name = j.name ∧
    Follows (·.grade = .pass) (fun j => ∀ ref ∈ j.gate.consumed, ref ∈ consumed) j j'

theorem exists_gradeUnder (verdict : Grade) (gate : CheckGate) :
    ∃ grade, gradeUnder verdict gate = .ok grade ∧ (grade = .pass ↔ verdict = .pass ∧ Opens gate) := by
  unfold gradeUnder
  cases applies : gate.grade with
  | none => exact ⟨verdict, rfl, by simp [Opens, applies]⟩
  | some grade =>
    obtain ⟨both, ok⟩ := @exists_triAll [verdict, grade] nofun
    refine ⟨both, ok, ?_⟩
    rw [(triAll_eq_ok ok).2]
    simp [Opens, applies]

theorem judge_follows {policies : Dict String CriterionPolicy}
    {given : List Assessment × Assessment} {j : Judged}
    (ok : judge fingerprint policies results given = .ok j) :
    ∃ j', judge fingerprint policies (keeping results consumed) given = .ok j' ∧
      Rejudged consumed j j' := by
  unfold judge at ok ⊢
  split at ok
  · cases ok
  next policy _ =>
    obtain ⟨own, ok⟩ := then_eq_ok.mp ok
    obtain ⟨fresh, ok⟩ := then_eq_ok.mp ok
    obtain ⟨gate, gated, ok⟩ := bind_eq_ok.mp ok
    obtain ⟨grade, weighed, ok⟩ := bind_eq_ok.mp ok
    cases ok
    obtain ⟨gate', gated', before, stays⟩ := @evaluateCheckGate_follows _ _ consumed _ _ gated
    obtain ⟨grade', weighed', passes'⟩ := exists_gradeUnder given.2.verdict gate'
    obtain ⟨_, same, passes⟩ := exists_gradeUnder given.2.verdict gate
    cases weighed.symm.trans same
    refine ⟨⟨given.2.criterionId, gate', grade'⟩, ?_, rfl, fun pass => ?_, fun pass kept => ?_⟩
    · exact then_eq_ok.mpr ⟨own, then_eq_ok.mpr ⟨fresh, bind_eq_ok.mpr ⟨_, gated',
        bind_eq_ok.mpr ⟨_, weighed', rfl⟩⟩⟩⟩
    · exact passes.mpr ⟨(passes'.mp pass).1, before (passes'.mp pass).2⟩
    · cases stays (passes.mp pass).2 kept
      cases weighed.symm.trans weighed'
      rfl

end

def Alike (grades grades' : Dict String Grade) : Prop := ∀ name,
  (get? grades' name).isSome = (get? grades name).isSome ∧
    (get? grades' name = some .pass → get? grades name = some .pass)

section
variable {grades grades' : Dict String Grade}

abbrev Carried (grades' : Dict String Grade) (x : Graded) : Prop :=
  ∀ name ∈ x.2, get? grades' name = some .pass

variable {x : Graded}

theorem gradedAll_follows {xs xs' : List Graded}
    (each : List.Forall₂ (Follows (·.1 = .pass) (Carried grades')) xs xs')
    (ok : gradedAll xs = .ok x) : ∃ x', gradedAll xs' = .ok x' ∧
      Follows (·.1 = .pass) (Carried grades') x x' := by
  have follows := forall_follows each
  have whole := ok
  obtain ⟨grade, decided, made⟩ := map_eq_ok.mp ok
  obtain ⟨some, all⟩ := triAll_eq_ok decided
  obtain ⟨grade', decided'⟩ := @exists_triAll (xs'.map (·.1)) (by
    rintro empty
    rw [List.map_eq_nil_iff] at empty
    subst empty
    cases each
    exact some rfl)
  have all' := (triAll_eq_ok decided').2
  rw [List.forall_mem_map] at all all'
  have ok' : gradedAll xs' = .ok (grade', if grade' = .pass then xs'.flatMap (·.2) else []) :=
    map_eq_ok.mpr ⟨_, decided', rfl⟩
  cases made
  refine ⟨_, ok', fun pass => all.mpr (follows.before (all'.mp pass)), fun pass kept => ?_⟩
  have same := follows.stays (all.mp pass) fun y inside name named => kept name (by
    rw [show grade = .pass from pass, if_pos rfl]
    exact List.mem_flatMap.mpr ⟨y, inside, named⟩)
  subst same
  exact Except.ok.inj (ok'.symm.trans whole)

theorem gradedAny_follows {xs xs' : List Graded}
    (each : List.Forall₂ (Follows (·.1 = .pass) (Carried grades')) xs xs')
    (ok : gradedAny xs = .ok x) : ∃ x', gradedAny xs' = .ok x' ∧
      Follows (·.1 = .pass) (Carried grades') x x' := by
  have some : xs ≠ [] := by
    rintro rfl
    cases ok
  refine @choice_follows _ _ _ _ _ _ _ _ _ id _ _ _ some each (fun xs x found => ?_)
    (fun xs some missing => ?_) (fun _ => id) ok
  · rw [gradedAny, found]
    exact ⟨rfl, by simpa using List.find?_some found⟩
  · obtain ⟨grade, ok, other⟩ := @exists_triAny (xs.map (·.1)) (by simpa using some)
      (pass_notMem missing)
    rw [gradedAny, missing]
    exact ⟨_, map_eq_ok.mpr ⟨grade, ok, rfl⟩, other⟩

mutual
theorem evaluate_follows (alike : Alike grades grades') {x : Graded} : ∀ formula : Formula,
    formula.evaluate grades = .ok x → ∃ x', formula.evaluate grades' = .ok x' ∧
      Follows (·.1 = .pass) (Carried grades') x x'
  | .criterion name, ok => by
    rw [Formula.evaluate] at ok ⊢
    obtain ⟨named, before⟩ := alike name
    cases found : get? grades name with
    | none => simp [found] at ok
    | some grade =>
      obtain ⟨grade', found'⟩ := Option.isSome_iff_exists.mp (named.trans (by rw [found]; rfl))
      rw [found] at ok before
      rw [found'] at before ⊢
      cases ok
      refine ⟨_, rfl, fun pass => Option.some.inj (before (congrArg some pass)), fun pass kept => ?_⟩
      have still := kept name (by simp [show grade = .pass from pass])
      simp only [found', Option.some.injEq] at still
      rw [still, show grade = .pass from pass]
  | .any children, ok => by
    rw [Formula.evaluate] at ok ⊢
    obtain ⟨evaluated, read, ok⟩ := bind_eq_ok.mp ok
    obtain ⟨evaluated', read', each⟩ := evaluateAll_follows alike children read
    obtain ⟨x', decided', follows⟩ := gradedAny_follows each ok
    exact ⟨x', bind_eq_ok.mpr ⟨_, read', decided'⟩, follows⟩
  | .all children, ok => by
    rw [Formula.evaluate] at ok ⊢
    obtain ⟨evaluated, read, ok⟩ := bind_eq_ok.mp ok
    obtain ⟨evaluated', read', each⟩ := evaluateAll_follows alike children read
    obtain ⟨x', decided', follows⟩ := gradedAll_follows each ok
    exact ⟨x', bind_eq_ok.mpr ⟨_, read', decided'⟩, follows⟩

theorem evaluateAll_follows (alike : Alike grades grades') {xs : List Graded} :
    ∀ children : List Formula, evaluateAll grades children = .ok xs →
      ∃ xs', evaluateAll grades' children = .ok xs' ∧
        List.Forall₂ (Follows (·.1 = .pass) (Carried grades')) xs xs'
  | [], ok => by
    cases ok
    exact ⟨[], rfl, .nil⟩
  | child :: rest, ok => by
    obtain ⟨x, here, ok⟩ := bind_eq_ok.mp ok
    obtain ⟨xs, there, ok⟩ := bind_eq_ok.mp ok
    cases ok
    obtain ⟨x', here', follows⟩ := evaluate_follows alike child here
    obtain ⟨xs', there', each⟩ := evaluateAll_follows alike rest there
    exact ⟨x' :: xs', bind_eq_ok.mpr ⟨_, here', bind_eq_ok.mpr ⟨_, there', rfl⟩⟩,
      .cons follows each⟩
end

mutual
theorem evaluate_carried {x : Graded} : ∀ formula : Formula,
    formula.evaluate grades = .ok x → x.1 = .pass → Carried grades x
  | .criterion name, ok, pass => by
    rw [Formula.evaluate] at ok
    split at ok
    · cases ok
    next found =>
      cases ok
      cases pass
      simpa [Carried] using found
  | .any children, ok, pass => by
    rw [Formula.evaluate] at ok
    obtain ⟨evaluated, read, ok⟩ := bind_eq_ok.mp ok
    unfold gradedAny at ok
    split at ok
    next found =>
      cases ok
      exact evaluateAll_carried children read x (List.mem_of_find?_eq_some found) pass
    next =>
      obtain ⟨_, _, made⟩ := map_eq_ok.mp ok
      cases made
      exact nofun
  | .all children, ok, pass => by
    rw [Formula.evaluate] at ok
    obtain ⟨evaluated, read, ok⟩ := bind_eq_ok.mp ok
    obtain ⟨grade, decided, made⟩ := map_eq_ok.mp ok
    cases made
    cases pass
    intro name inside
    rw [if_pos rfl] at inside
    obtain ⟨y, there, named⟩ := List.mem_flatMap.mp inside
    have passes := (triAll_eq_ok decided).2.mp rfl _ (List.mem_map_of_mem there)
    exact evaluateAll_carried children read y there passes name named

theorem evaluateAll_carried {xs : List Graded} : ∀ children : List Formula,
    evaluateAll grades children = .ok xs → ∀ x ∈ xs, x.1 = .pass → Carried grades x
  | [], ok => by
    cases ok
    exact nofun
  | child :: rest, ok => by
    rw [evaluateAll] at ok
    obtain ⟨x, here, ok⟩ := bind_eq_ok.mp ok
    obtain ⟨xs, there, ok⟩ := bind_eq_ok.mp ok
    cases ok
    exact List.forall_mem_cons.mpr
      ⟨evaluate_carried child here, evaluateAll_carried rest there⟩
end

theorem exists_withMandatory {mandatory : List String}
    (named : ∀ name ∈ mandatory, (get? grades name).isSome) (x : Graded) :
    ∃ y, withMandatory mandatory grades x = .ok y ∧
      (y.1 = .pass ↔ x.1 = .pass ∧ ∀ name ∈ mandatory, get? grades name = some .pass) ∧
      (y.1 = .pass → y.2 = x.2 ++ mandatory) := by
  unfold withMandatory
  split
  next none => exact ⟨x, rfl, by simp [none], by simp [none]⟩
  next some =>
    obtain ⟨result, ok⟩ := @exists_triAll (x.1 :: mandatory.filterMap (get? grades)) nofun
    refine ⟨_, bind_eq_ok.mpr ⟨result, ok, rfl⟩, ?_, fun pass => if_pos pass⟩
    rw [(triAll_eq_ok ok).2, List.forall_mem_cons, List.forall_mem_filterMap]
    refine and_congr_right fun _ => forall₂_congr fun name inside => ?_
    obtain ⟨grade, found⟩ := Option.isSome_iff_exists.mp (named name inside)
    simp [found]

theorem withMandatory_follows (alike : Alike grades grades') {mandatory : List String}
    (named : ∀ name ∈ mandatory, (get? grades name).isSome) {x' y : Graded}
    (follows : Follows (·.1 = .pass) (Carried grades') x x')
    (ok : withMandatory mandatory grades x = .ok y) :
    ∃ y', withMandatory mandatory grades' x' = .ok y' ∧
      Follows (·.1 = .pass) (Carried grades') y y' := by
  obtain ⟨_, same, passes, both⟩ := exists_withMandatory named x
  cases ok.symm.trans same
  obtain ⟨y', ok', passes', both'⟩ := @exists_withMandatory grades' mandatory
    (fun name inside => (alike name).1.trans (named name inside)) x'
  refine ⟨y', ok', fun pass => passes.mpr ?_, fun pass kept => ?_⟩
  · obtain ⟨first, rest⟩ := passes'.mp pass
    exact ⟨follows.before first, fun name inside => (alike name).2 (rest name inside)⟩
  · have kept' : Carried grades' (x.1, x.2 ++ mandatory) := by
      rw [← both pass]
      exact kept
    have first := follows.stays (passes.mp pass).1 fun name inside =>
      kept' name (List.mem_append_left _ inside)
    subst first
    have pass' := passes'.mpr ⟨(passes.mp pass).1, fun name inside =>
      kept' name (List.mem_append_right _ inside)⟩
    exact Prod.ext (pass'.trans pass.symm) ((both' pass').trans (both pass).symm)

end

theorem effective_pass {row : CheckResult} (pass : row.effective = .pass) :
    row.sourceValid = true ∧ row.executionState = .succeeded ∧ row.assertionGrade = .pass := by
  unfold CheckResult.effective at pass
  split at pass
  next valid => exact ⟨valid.1, valid.2, pass⟩
  next => cases pass

variable {consumed : List AssuranceRef}

theorem get?_judged (judged : List Judged) (name : String) :
    get? (judged.map fun j => (j.name, graded findings j)) name =
      (judged.find? (·.name = name)).map (graded findings) := by
  induction judged with
  | nil => rfl
  | cons j rest ih =>
    rw [List.map_cons, get?, List.find?_cons, ih]
    by_cases same : j.name = name <;> simp [same]

variable {judged : List Judged}

section
variable (each : List.Forall₂ (Rejudged consumed) judged judged')
include each

theorem find?_rejudged (name : String) :
    Option.Rel (Rejudged consumed) (judged.find? (·.name = name)) (judged'.find? (·.name = name)) := by
  induction each with
  | nil => exact .none
  | @cons j j' _ _ here _ ih =>
    rw [List.find?_cons, List.find?_cons, here.1]
    by_cases same : j.name = name
    · simpa [same] using Option.Rel.some here
    · simpa [same] using ih

theorem find?_stays {name : String}
    {j : Judged} (found : judged.find? (·.name = name) = some j) (pass : j.grade = .pass)
    (kept : ∀ ref ∈ j.gate.consumed, ref ∈ consumed) : judged'.find? (·.name = name) = some j := by
  have both := find?_rejudged each name
  rw [found] at both
  generalize judged'.find? (·.name = name) = found' at both ⊢
  cases both with
  | some here => rw [here.2.stays pass kept]

theorem names_rejudged :
    judged'.map (·.name) = judged.map (·.name) := by
  induction each with
  | nil => rfl
  | cons here _ ih => rw [List.map_cons, List.map_cons, here.1, ih]

end

theorem graded_pass {findings : List Finding} {j : Judged} :
    graded findings j = .pass ↔ j.grade = .pass ∧
      ¬ ∃ f ∈ findings, f.criterionId = j.name ∧ f.severity = .blocker := by
  unfold graded
  split
  next blocked => simp [blocked]
  next clear => simp [clear]

theorem alike_graded (each : List.Forall₂ (Rejudged consumed) judged judged') :
    Alike (judged.map fun j => (j.name, graded findings j))
      (judged'.map fun j => (j.name, graded findings j)) := by
  intro name
  have both := find?_rejudged each name
  rw [get?_judged, get?_judged]
  generalize judged.find? (·.name = name) = found at both ⊢
  generalize judged'.find? (·.name = name) = found' at both ⊢
  cases both with
  | none => exact ⟨rfl, id⟩
  | some here =>
    refine ⟨rfl, fun pass => ?_⟩
    have pass := graded_pass.mp (Option.some.inj pass)
    rw [here.1] at pass
    exact congrArg some (graded_pass.mpr ⟨here.2.before pass.1, pass.2⟩)

section
variable {fingerprint : AssuranceRef → String} {results : Results}

theorem gateOf_pass {evaluated : List (Grade × List AssuranceRef)} {gate : CheckGate}
    (ok : gateOf fingerprint evaluated = .ok gate) (opens : Opens gate) :
    ∃ x ∈ evaluated, x.1 = .pass ∧ gate.consumed = x.2 := by
  cases found : evaluated.find? (·.1 = .pass) with
  | none =>
    have some : evaluated ≠ [] := by
      rintro rfl
      cases ok
    obtain ⟨_, chosen, other⟩ := @gateOf_miss fingerprint evaluated some found
    cases ok.symm.trans chosen
    exact absurd opens other
  | some x =>
    cases ok.symm.trans (gateOf_hit evaluated x found).1
    exact ⟨x, List.mem_of_find?_eq_some found, by simpa using List.find?_some found, rfl⟩

theorem judge_consumed {policies : Dict String CriterionPolicy}
    {given : List Assessment × Assessment} {j : Judged}
    (ok : judge fingerprint policies results given = .ok j) (pass : j.grade = .pass)
    {receipt : AssuranceRef} (inside : receipt ∈ j.gate.consumed) :
    ∃ policy, get? policies j.name = some policy ∧ ∃ group ∈ policy.anyCheckSets, ∃ spec ∈ group,
      ∃ row, results spec = some row ∧ row.receipt = receipt ∧ row.effective = .pass := by
  unfold judge at ok
  split at ok
  · cases ok
  next policy found =>
    obtain ⟨_, ok⟩ := then_eq_ok.mp ok
    obtain ⟨_, ok⟩ := then_eq_ok.mp ok
    obtain ⟨gate, gated, ok⟩ := bind_eq_ok.mp ok
    obtain ⟨grade, weighed, ok⟩ := bind_eq_ok.mp ok
    cases ok
    obtain ⟨_, same, passes⟩ := exists_gradeUnder given.2.verdict gate
    cases weighed.symm.trans same
    unfold evaluateCheckGate at gated
    split at gated
    · cases gated
      cases inside
    · obtain ⟨evaluated, read, gated⟩ := bind_eq_ok.mp gated
      obtain ⟨x, there, passed, same⟩ := gateOf_pass gated (passes.mp pass).2
      obtain ⟨group, listed, graded⟩ := (mem_of_mapM read x).mp there
      obtain ⟨spec, within, row, kept, own⟩ := gradeGroup_receipts graded (same ▸ inside)
      obtain ⟨_, again, effective, _⟩ := gradeGroup_pass graded passed spec within
      cases kept.symm.trans again
      exact ⟨policy, found, group, listed, spec, within, row, kept, own, effective⟩

end

/-- The results that the consumed receipts come from decide the same, and none can be spared. -/
theorem consumed_receipts_decide (fingerprint : AssuranceRef → String) (reply : ReviewReply)
    (formula : Formula) (mandatory : List String) (policies : Dict String CriterionPolicy)
    (results : Results) (decision : ReviewDecision)
    (decided : decideReview fingerprint reply formula mandatory policies results = .ok decision)
    (acceptable : decision.acceptable = true) :
    (∀ receipt ∈ decision.consumedReceipts, ∃ name ∈ decision.successWitness,
      ∃ policy, get? policies name = some policy ∧ ∃ group ∈ policy.anyCheckSets, ∃ spec ∈ group,
        ∃ row, results spec = some row ∧ row.receipt = receipt ∧ row.sourceValid = true ∧
          row.executionState = .succeeded ∧ row.assertionGrade = .pass) ∧
    (∃ decision', decideReview fingerprint reply formula mandatory policies
        (keeping results decision.consumedReceipts) = .ok decision' ∧ decision'.acceptable = true ∧
      decision'.successWitness = decision.successWitness ∧
      decision'.consumedReceipts = decision.consumedReceipts) ∧
    ∀ spec row', row'.effective ≠ .pass → ∀ group, spec ∈ group → ∀ x,
      gradeGroup fingerprint (Function.update results spec (some row')) group = .ok x → x.1 ≠ .pass := by
  unfold decideReview at decided
  obtain ⟨mandated, decided⟩ := then_eq_ok.mp decided
  obtain ⟨judged, read, decided⟩ := bind_eq_ok.mp decided
  obtain ⟨covered, decided⟩ := then_eq_ok.mp decided
  obtain ⟨within, decided⟩ := then_eq_ok.mp decided
  obtain ⟨evaluated, evaluates, decided⟩ := bind_eq_ok.mp decided
  obtain ⟨⟨result, witness⟩, joined, decided⟩ := bind_eq_ok.mp decided
  cases decided
  simp only [decide_eq_true_eq] at acceptable
  obtain ⟨accepts, rfl⟩ := acceptable
  simp only [accepts, and_self, decide_true, if_true]
  have named : ∀ name ∈ mandatory,
      (get? (judged.map fun j => (j.name, graded reply.findings j)) name).isSome := by
    intro name inside
    rw [get?_isSome_iff]
    rw [require_eq_ok] at mandated covered
    simpa [keys] using covered.2 (mandated.2 inside)
  have carried : Carried (judged.map fun j => (j.name, graded reply.findings j)) (.pass, witness) := by
    obtain ⟨_, same, passes, both⟩ := exists_withMandatory named evaluated
    cases joined.symm.trans same
    obtain ⟨first, rest⟩ := passes.mp rfl
    intro name inside
    rw [both rfl, List.mem_append] at inside
    exact inside.elim (evaluate_carried formula evaluates first name) (rest name)
  -- Each witness criterion has passed, so its judgement stands first under its name.
  have standing : ∀ name ∈ witness, ∃ j, judged.find? (·.name = name) = some j ∧
      j.grade = .pass ∧ graded reply.findings j = .pass := by
    intro name inside
    have pass := carried name inside
    rw [get?_judged] at pass
    obtain ⟨j, found, pass⟩ := Option.map_eq_some_iff.mp pass
    exact ⟨j, found, (graded_pass.mp pass).1, pass⟩
  generalize owned : inOrder fingerprint (witness.flatMap fun name =>
    ((judged.find? (·.name = name)).map (·.gate.consumed)).getD []) = consumed
  have mine : ∀ receipt, receipt ∈ consumed ↔ ∃ name ∈ witness, ∃ j,
      judged.find? (·.name = name) = some j ∧ receipt ∈ j.gate.consumed := by
    intro receipt
    rw [← owned, mem_inOrder, List.mem_flatMap]
    refine exists_congr fun name => and_congr_right fun _ => ?_
    cases judged.find? (·.name = name) <;> simp
  refine ⟨?_, ?_, ?_⟩
  · intro receipt inside
    obtain ⟨name, listed, j, found, inside⟩ := (mine receipt).mp inside
    obtain ⟨j, again, pass, _⟩ := standing name listed
    cases found.symm.trans again
    obtain ⟨given, _, from_⟩ := (mem_of_mapM read j).mp (List.mem_of_find?_eq_some found)
    obtain ⟨policy, resolved, group, among, spec, member, row, kept, own, effective⟩ :=
      judge_consumed from_ pass inside
    have same : j.name = name := by simpa using List.find?_some found
    exact ⟨name, listed, policy, same ▸ resolved, group, among, spec, member, row, kept, own,
      effective_pass effective⟩
  · obtain ⟨judged', read', each⟩ := mapM_follows read fun _ _ _ =>
      @judge_follows fingerprint results consumed _ _ _
    have names : judged'.map (·.name) = judged.map (·.name) := names_rejudged each
    have still : ∀ name ∈ witness, judged'.find? (·.name = name) = judged.find? (·.name = name) := by
      intro name listed
      obtain ⟨j, found, pass, _⟩ := standing name listed
      rw [found, find?_stays each found pass fun receipt inside =>
        (mine receipt).mpr ⟨name, listed, j, found, inside⟩]
    have alike := alike_graded reply.findings each
    obtain ⟨evaluated', evaluates', follows⟩ := evaluate_follows alike formula evaluates
    obtain ⟨y, joined', follows⟩ := withMandatory_follows alike named follows joined
    have same : y = (.pass, witness) := by
      refine follows.stays rfl fun name listed => ?_
      obtain ⟨j, found, _, pass⟩ := standing name listed
      rw [get?_judged, still name listed, found]
      exact congrArg some pass
    subst same
    refine ⟨_, then_eq_ok.mpr ⟨mandated, bind_eq_ok.mpr ⟨judged', read', then_eq_ok.mpr
      ⟨by rwa [names], then_eq_ok.mpr ⟨by rwa [names], bind_eq_ok.mpr ⟨evaluated', evaluates',
        bind_eq_ok.mpr ⟨_, joined', rfl⟩⟩⟩⟩⟩⟩, by simp [accepts], by simp [accepts], ?_⟩
    simp only [accepts, and_self, decide_true, if_true]
    rw [← owned]
    refine congrArg (inOrder fingerprint) (List.flatMap_congr fun name listed => ?_)
    rw [still name listed]
  · intro spec row' failing group member x ok pass
    obtain ⟨row, found, effective, _⟩ := gradeGroup_pass ok pass spec member
    rw [Function.update_self] at found
    cases found
    exact failing effective

/-- The first check of the criterion has failed; the second is consumed. -/
theorem consumed_receipts_decide_second :
    let spec (id : String) : AssuranceRef := ⟨"spec", id, 1, ""⟩
    let receipt (id : String) : AssuranceRef := ⟨"receipt", id, 1, ""⟩
    let ran (id : String) (grade : Grade) : Option CheckResult :=
      some ⟨spec id, receipt id, .succeeded, grade, true⟩
    let results := Function.update (Function.update (fun _ => none) (spec "s") (ran "s" .fail))
      (spec "t") (ran "t" .pass)
    let review := decideReview AssuranceRef.id ⟨.accept, [⟨"c", .pass⟩], []⟩ (.criterion "c") ["c"]
      [("c", ⟨"c", .checked, [[spec "s"], [spec "t"]]⟩)]
    ∃ decision, review results = .ok decision ∧ decision.acceptable = true ∧
      decision.consumedReceipts = [receipt "t"] ∧
      ∃ decision', review (keeping results decision.consumedReceipts) = .ok decision' ∧
        decision'.acceptable = true := by
  intro spec receipt ran results review
  have decided : review results = .ok ⟨true, [("c", .pass)], ["c", "c"], [receipt "t"],
      ["c:CHECK_GROUP_SATISFIED"]⟩ := by
    decide +kernel
  refine ⟨_, decided, rfl, rfl, ?_⟩
  obtain ⟨_, ⟨decision', again, acceptable, _⟩, _⟩ :=
    consumed_receipts_decide _ _ _ _ _ _ _ decided rfl
  exact ⟨decision', again, acceptable⟩

end Acceptance
