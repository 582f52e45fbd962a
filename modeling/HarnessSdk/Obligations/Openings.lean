import HarnessSdk.Obligations.Runs
import HarnessSdk.Planning.Retirement

/-! Opening the duties of a plan delta, one after another, each with the demand that asks for it. -/
open Tables
namespace Obligations
open PyDict PyText Checks Network Planning Metered

/-! Who asks. -/

/-- Who asks for the work of a duty that is opened, and on what authority. -/
structure DemandAdmission where
  obligationId : ObligationId
  parentObligationId : ObligationId
  relation : ObligationRelation
  requesterKind : String
  methodInstanceId : Option MethodInstanceId := none
  slotKey : Option String := none
  occurrenceId : Option OccurrenceId := none
  authorizationRef : Option TypedRef := none

section
variable (delta : ProposedPlanDelta)

def slotsFor (duty : ObligationId) : List ChildBinding :=
  (delta.methodInstances.flatMap (·.childBindings)).filter (·.obligationId = duty)

def demandAdmissionFor (opening : ObligationOpening) :
    Except Message DemandAdmission :=
  let duty := opening.obligationId
  match opening.relation with
  | .independentAuthorized => do
    require opening.authorizationRef.isSome
      [.text ("the independently authorised duty " ++ duty ++
        " names no authority; planning alone does not create responsibility (§6.1)")]
    .ok {
      obligationId := duty
      parentObligationId := opening.parentObligationId
      relation := opening.relation
      requesterKind := "authorization"
      authorizationRef := opening.authorizationRef }
  | .refinesParent =>
    match slotsFor delta duty with
    | [] => .error [.text ("no adopted slot in this delta asks for the work of " ++ duty ++
        "; a refinement creates the duty its own method instance adopted, and an opening " ++
        "nobody adopted would be a duty with no consumer (TG §3.2, §9.2)")]
    | [slot] => .ok {
        obligationId := duty
        parentObligationId := opening.parentObligationId
        relation := opening.relation
        requesterKind := "method_slot"
        methodInstanceId := some slot.instanceId
        slotKey := some slot.slotKey
        occurrenceId := some slot.occurrenceId }
    | slots => .error [.text (toString slots.length ++ " slots of this delta bind " ++ duty ++
        "; a second consumer registers its own DemandRef through the commit path rather than " ++
        "sharing this one (§24.1 decision 9)")]

def demandAdmissionsFor : Except Message (List DemandAdmission) :=
  delta.obligationOpenings.mapM (demandAdmissionFor delta)

/-! Opening. -/

/-- How the commit path admits a demand; without one the ledger is asked. -/
abbrev Admit := Option (DemandAdmission → Work ObligationAccountView)

/-- One round of the loop; a duty with no admission would be a `KeyError`. -/
def applyOpening (admissions : Dict ObligationId DemandAdmission)
    (grantedFuel : Dict ObligationId Int) (admitting : Admit) (opening : ObligationOpening) :
    Work ObligationAccountView := do
  let parentAccount ← account opening.parentObligationId
  let admission ← orStop (get? admissions opening.obligationId) [.repr opening.obligationId]
  ensure (admission.relation = .refinesParent → parentAccount.hasAdmittedDemand = true)
    [.text ("the parent duty " ++ opening.parentObligationId ++
      " has no admitted demand, so there is nobody for " ++ opening.obligationId ++
      " to inherit an interest from; refining work nobody wants is refused rather than " ++
      "assumed (§6.1)")]
  let _ ← openFrom opening parentAccount (get? grantedFuel opening.obligationId)
  match admitting with
  | none => admitDemand opening.obligationId
  | some admitting => admitting admission

def admissionsByDuty (admissions : List DemandAdmission) : Dict ObligationId DemandAdmission :=
  ofEntries (admissions.map fun admission => (admission.obligationId, admission))

def applyObligationOpenings (grantedFuel : Dict ObligationId Int)
    (admitting : Admit) : Work (List ObligationAccountView) := do
  let admissions ← lift (demandAdmissionsFor delta)
  delta.obligationOpenings.mapM (applyOpening (admissionsByDuty admissions) grantedFuel admitting)

end

/-! One opening. -/

/-- A way to admitting that ends as the ledger's own does, or is refused and writes nothing. -/
def Routes (admitting : DemandAdmission → Work ObligationAccountView) : Prop :=
  ∀ admission s, match admitting admission s with
    | (.ok shown, t) => admitDemand admission.obligationId s = (.ok shown, t)
    | (.error _, t) => t = s

def Account.admitting (row : Account) : Account := { row with demandAdmitted := true }

section
variable {s m t : ObligationLedger} {opening : ObligationOpening} {granted : Option Int}

inductive OpensAdmitted (s : ObligationLedger) (opening : ObligationOpening)
    (granted : Option Int) : ObligationLedger → Prop
  | admitted {m : ObligationLedger} {row : Account} : Opens s opening granted m →
      get? m.accounts opening.obligationId = some row →
      OpensAdmitted s opening granted (m.put opening.obligationId row.admitting)

theorem admitDemand_admits {target : ObligationId} {row : Account}
    (found : get? s.accounts target = some row) (live : row.lifecycle = .unsatisfied)
    (fresh : row.demandAdmitted = false) :
    admitDemand target s = (.ok row.admitting.view, s.put target row.admitting) := by
  have first : (ensure (row.lifecycle = .unsatisfied)
      [.text "a demand may only be admitted against an open obligation"] : Work Unit) s =
      (.ok (), s) := if_pos live
  have second : (ensure (row.demandAdmitted = false) [.text ("obligation " ++ target ++
      " already has an admitted demand; a second consumer registers its own DemandRef")] :
      Work Unit) s = (.ok (), s) := if_pos fresh
  have shown : get? (s.put target row.admitting).accounts target = some row.admitting :=
    get?_set_self _ _ _
  have last : account target (s.put target row.admitting) =
      (.ok row.admitting.view, s.put target row.admitting) := by
    unfold account
    rw [bind_of_ran (requireAccount_ran shown)]
    rfl
  unfold admitDemand
  rw [bind_of_ran (requireAccount_ran found), bind_of_ran first, bind_of_ran second]
  exact last

theorem Opens.row (opens : Opens s opening granted m) : ∃ row,
    get? m.accounts opening.obligationId = some row ∧ row.lifecycle = .unsatisfied ∧
      row.demandAdmitted = false ∧
      row.obligation.parentObligationId = some opening.parentObligationId := by
  cases opens with
  | opens found fresh funded => exact ⟨_, get?_set_self _ _ _, rfl, rfl, rfl⟩

theorem Opens.admits (opens : Opens s opening granted m) :
    Ends (admitDemand opening.obligationId) m fun _ t => OpensAdmitted s opening granted t := by
  obtain ⟨row, found, live, fresh, _⟩ := opens.row
  exact ⟨_, _, admitDemand_admits found live fresh, .admitted opens found⟩

/-- What a refused opening may leave: nothing, or, where the demand was refused by the way to
admitting that was supplied, the duty without its demand. -/
def Leftover (admitting : Admit) (s : ObligationLedger) (opening : ObligationOpening)
    (granted : Option Int) (t : ObligationLedger) : Prop :=
  t = s ∨ admitting.isSome ∧ Opens s opening granted t

theorem applyOpening_advances {admissions : Dict ObligationId DemandAdmission}
    (named : ∀ duty admission, get? admissions duty = some admission →
      admission.obligationId = duty)
    (grantedFuel : Dict ObligationId Int) {admitting : Admit}
    (routes : ∀ f, admitting = some f → Routes f) (opening : ObligationOpening)
    (s : ObligationLedger) :
    Advances (applyOpening admissions grantedFuel admitting opening) s
      (OpensAdmitted s opening (get? grantedFuel opening.obligationId))
      (Leftover admitting s opening (get? grantedFuel opening.obligationId)) := by
  have nothing : Leftover admitting s opening (get? grantedFuel opening.obligationId) s := Or.inl rfl
  unfold applyOpening
  apply advances_reads (reads_account _) nothing
  intro parentAccount _
  apply advances_reads (reads_orStop _ _) nothing
  intro admission taken
  have same : admission.obligationId = opening.obligationId := by
    apply named
    cases known : get? admissions opening.obligationId with
    | none =>
      rw [known] at taken
      cases taken
    | some found =>
      rw [known] at taken
      cases taken
      rfl
  apply advances_reads (reads_ensure _ _) nothing
  intro _ _
  apply advances_bind (openFrom_opens _ _ _) nothing
  intro _ m opens
  obtain ⟨shown, t, ran, done⟩ := opens.admits
  cases way : admitting with
  | none =>
    unfold Advances
    simp only
    rw [ran]
    exact done
  | some f =>
    have route := routes f way admission m
    unfold Advances
    simp only
    cases outcome : f admission m with
    | mk result t' =>
      rw [outcome] at route
      cases result with
      | ok shown' =>
        rw [same, ran] at route
        cases route
        exact done
      | error e => exact Or.inr ⟨rfl, route ▸ opens⟩

/-! Openings one after another. -/

def fuelBrought (grantedFuel : Dict ObligationId Int) (opening : ObligationOpening) : Int :=
  if opening.budgetInheritance = .separateGrant
    then (get? grantedFuel opening.obligationId).getD 0 else 0

structure Applied (grantedFuel : Dict ObligationId Int) (s : ObligationLedger)
    (openings : List ObligationOpening) (t : ObligationLedger) : Prop where
  duties : keys t.accounts = keys s.accounts ++ openings.map (·.obligationId)
  once : (openings.map (·.obligationId)).Nodup ∧
    ∀ opening ∈ openings, get? s.accounts opening.obligationId = none
  demanded : ∀ opening ∈ openings, ∃ row, get? t.accounts opening.obligationId = some row ∧
    row.lifecycle = .unsatisfied ∧ row.demandAdmitted = true ∧
      row.obligation.parentObligationId = some opening.parentObligationId
  limits : t.totalLimit = s.totalLimit + total (fuelBrought grantedFuel) openings

structure Stays (old new : Account) : Prop where
  lifecycle : new.lifecycle = old.lifecycle
  demandAdmitted : new.demandAdmitted = old.demandAdmitted
  obligation : new.obligation = old.obligation

theorem Opens.apart (opens : Opens s opening granted m) {id : ObligationId} {row : Account}
    (found : get? s.accounts id = some row) : opening.obligationId ≠ id := by
  rintro rfl
  cases opens with
  | opens _ fresh _ =>
    rw [fresh] at found
    cases found

variable {id : ObligationId} {grantedFuel : Dict ObligationId Int}

theorem Opens.stays (opens : Opens s opening granted m) {row : Account}
    (found : get? s.accounts id = some row) :
    ∃ row', get? m.accounts id = some row' ∧ Stays row row' := by
  have apart := opens.apart found
  cases opens with
  | @opens parent childFuel share there fresh funded =>
    unfold ObligationLedger.put
    rw [get?_set_ne _ _ apart]
    by_cases same : opening.parentObligationId = id
    · subst same
      rw [there] at found
      cases found
      exact ⟨_, get?_set_self _ _ _, rfl, rfl, rfl⟩
    · exact ⟨row, (get?_set_ne _ _ same).trans found, rfl, rfl, rfl⟩

theorem OpensAdmitted.stays (opens : OpensAdmitted s opening granted t) {row : Account}
    (found : get? s.accounts id = some row) :
    ∃ row', get? t.accounts id = some row' ∧ Stays row row' := by
  cases opens with
  | admitted opens there =>
    obtain ⟨row', found', stays⟩ := opens.stays found
    exact ⟨row', (get?_set_ne _ _ (opens.apart found)).trans found', stays⟩

theorem Opens.keys (opens : Opens s opening granted m) :
    keys m.accounts = keys s.accounts ++ [opening.obligationId] := by
  have apart {id row} := @Opens.apart s m opening granted opens id row
  cases opens with
  | @opens parent childFuel share there fresh funded =>
    have still : get? (PyDict.set s.accounts opening.parentObligationId
        (parent.give share)) opening.obligationId = none :=
      (get?_set_ne _ _ (apart there).symm).trans fresh
    unfold ObligationLedger.put
    rw [keys_set_of_none still, keys_set_of_some there]

section
variable (opens : OpensAdmitted s opening granted t)
include opens

theorem OpensAdmitted.keys :
    keys t.accounts = keys s.accounts ++ [opening.obligationId] := by
  cases opens with
  | admitted opens there => exact (keys_set_of_some there).trans opens.keys

theorem OpensAdmitted.fresh :
    get? s.accounts opening.obligationId = none := by
  cases opens with
  | admitted opens _ =>
    cases opens with
    | opens _ fresh _ => exact fresh

theorem OpensAdmitted.demanded : ∃ row,
    get? t.accounts opening.obligationId = some row ∧ row.lifecycle = .unsatisfied ∧
      row.demandAdmitted = true ∧
        row.obligation.parentObligationId = some opening.parentObligationId := by
  cases opens with
  | @admitted m row opens there =>
    obtain ⟨row', there', live, _, parent⟩ := opens.row
    rw [there] at there'
    cases there'
    exact ⟨row.admitting, get?_set_self _ _ _, live, rfl, parent⟩

end

theorem OpensAdmitted.limits
    (opens : OpensAdmitted s opening (get? grantedFuel opening.obligationId) t) :
    t.totalLimit = s.totalLimit + fuelBrought grantedFuel opening := by
  cases opens with
  | @admitted m row opens there =>
    have before := opens.change.totals.1
    have after := (@totals_old m opening.obligationId row row.admitting there).1
    have same : row.admitting.fuelLimit = row.fuelLimit := rfl
    rw [after, before, same, fuelBrought]
    omega

theorem applied_of_steps {openings : List ObligationOpening} {s t : ObligationLedger}
    (steps : Steps (fun opening s t => OpensAdmitted s opening (get? grantedFuel
      opening.obligationId) t) openings s t) :
    Applied grantedFuel s openings t ∧ ∀ id row, get? s.accounts id = some row →
      ∃ row', get? t.accounts id = some row' ∧ Stays row row' := by
  induction steps with
  | nil =>
    refine ⟨⟨by simp, ⟨List.nodup_nil, by simp⟩, by simp, by simp⟩, ?_⟩
    exact fun id row found => ⟨row, found, rfl, rfl, rfl⟩
  | @cons first rest s m t opens _ ih =>
    obtain ⟨later, stay⟩ := ih
    have duty := opens.keys
    refine ⟨⟨?_, ⟨?_, ?_⟩, ?_, ?_⟩, ?_⟩
    · rw [later.duties, duty, List.append_assoc]
      rfl
    · rw [List.map_cons, List.nodup_cons]
      refine ⟨fun again => ?_, later.once.1⟩
      obtain ⟨other, inside, same⟩ := List.mem_map.mp again
      have absent := later.once.2 other inside
      rw [get?_eq_none_iff, duty, same] at absent
      exact absent (List.mem_append_right _ List.mem_cons_self)
    · intro other inside
      rcases List.mem_cons.mp inside with rfl | inside
      · exact opens.fresh
      · have absent := later.once.2 other inside
        rw [get?_eq_none_iff, duty] at absent
        rw [get?_eq_none_iff]
        exact fun old => absent (List.mem_append_left _ old)
    · intro other inside
      rcases List.mem_cons.mp inside with rfl | inside
      · obtain ⟨row, found, live, demand, parent⟩ := opens.demanded
        obtain ⟨row', found', kept⟩ := stay _ row found
        exact ⟨row', found', kept.lifecycle.trans live, kept.demandAdmitted.trans demand,
          kept.obligation ▸ parent⟩
      · exact later.demanded other inside
    · rw [later.limits, opens.limits, total_cons, Int.add_assoc]
    · intro id row found
      obtain ⟨row', found', kept⟩ := opens.stays found
      obtain ⟨row'', found'', kept'⟩ := stay id row' found'
      exact ⟨row'', found'', kept'.lifecycle.trans kept.lifecycle,
        kept'.demandAdmitted.trans kept.demandAdmitted, kept'.obligation.trans kept.obligation⟩

end

/-- Where the admissions are refused, so is the call, and nothing is written. Else a refused call
ends at the opening that is refused, with those before it applied; a call that is not refused has
opened every duty once, each with its demand admitted. Either way the fuel that was not there before
is what separate grants bring. -/
theorem openings_apply_in_order (delta : ProposedPlanDelta) (grantedFuel : Dict ObligationId Int)
    (admitting : Admit) (routes : ∀ f, admitting = some f → Routes f) (s : ObligationLedger) :
    match demandAdmissionsFor delta with
    | .error e => applyObligationOpenings delta grantedFuel admitting s = (.error e, s)
    | .ok admissions =>
      match applyObligationOpenings delta grantedFuel admitting s with
      | (.ok _, t) => Applied grantedFuel s delta.obligationOpenings t
      | (.error e, t) => ∃ done refused later shown m,
          delta.obligationOpenings = done ++ refused :: later ∧
          done.mapM (applyOpening (admissionsByDuty admissions) grantedFuel admitting) s =
            (.ok shown, m) ∧
          applyOpening (admissionsByDuty admissions) grantedFuel admitting refused m =
            (.error e, t) ∧
          Applied grantedFuel s done m ∧
          Leftover admitting m refused (get? grantedFuel refused.obligationId) t := by
  unfold applyObligationOpenings
  cases asked : demandAdmissionsFor delta with
  | error e => rfl
  | ok admissions =>
    have first : (lift (.ok admissions) : Work (List DemandAdmission)) s = (.ok admissions, s) :=
      rfl
    dsimp only
    rw [bind_of_ran first]
    have named : ∀ duty admission, get? (admissionsByDuty admissions) duty = some admission →
        admission.obligationId = duty := by
      intro duty admission found
      rcases get?_update_cases found with listed | old
      · obtain ⟨_, _, same⟩ := List.mem_map.mp listed
        cases same
        rfl
      · cases old
    have steps := mapM_steps (applyOpening_advances named grantedFuel routes)
      delta.obligationOpenings s
    cases ran : delta.obligationOpenings.mapM
        (applyOpening (admissionsByDuty admissions) grantedFuel admitting) s with
    | mk outcome t =>
      rw [ran] at steps
      cases outcome with
      | ok shown => exact (applied_of_steps steps).1
      | error e =>
        obtain ⟨done, refused, later, shown, m, split, before, taken, stopped, left⟩ := steps
        exact ⟨done, refused, later, shown, m, split, before, stopped, (applied_of_steps taken).1,
          left⟩

/-! Two authorised slots of one goal, each a duty of its own. -/

def sideNetwork : TaskNetwork where
  missionId := "m"
  planRevision := 1
  occurrences := [{ occurrenceId := "g", taskId := "g", obligationId := "goal", form := .compound }]
  taskBindings := [
    { taskId := "g"
      obligationId := "goal"
      form := .compound
      goalSignature := { signatureId := "g" }
      requirementRefs := ["r"] }]
  methodInstances := []
  adoptedInstanceIds := []
  rootOccurrenceIds := ["g"]

def side : TaskNetworkSnapshot := ⟨sideNetwork, by decide⟩

def sideStep (slot : String) (relation : ObligationRelation) : MethodStep where
  localId := slot
  taskTypeRef := ⟨"work", 1, emptyHash⟩
  form := .primitive
  obligationRelation := relation

def sideMethod : MethodContract where
  methodId := "side"
  methodVersion := 1
  contentHash := "381c2aff4bf5b360bbae474d9e5f7d0cc7b4fd34599e4fae43079b86c3916a79"
  steps := [sideStep "work" .refinesParent, sideStep "aux" .independentAuthorized,
    sideStep "extra" .independentAuthorized]
  composition := { criterionLinks := [⟨"done", some "work"⟩] }

def sideChild (slot occurrence duty : String) (requiredness : Requiredness) : ChildBinding where
  instanceId := "mi-g"
  slotKey := slot
  occurrenceId := occurrence
  obligationId := duty
  requiredness := requiredness

def sideDraft : MethodInstanceDraft where
  instanceId := "mi-g"
  goalId := "g"
  obligationId := "goal"
  methodRef := sideMethod.methodRef
  childBindings := [
    sideChild "work" "occ-dbb7e61e0131bcfa749b70e093aac420" "goal" .required,
    sideChild "aux" "occ-21483a550411a275783aaf50b20a7dea" "obl-824937a2cb879e6c49a47e737d718a61"
      .optionalAuthorized,
    sideChild "extra" "occ-b00262e23484a8ddbe8dfe5c133f9ca5" "obl-6cc5015b65e084421141992344bd735e"
      .optionalAuthorized]

def sideInputs : CompileInputs where
  method := sideMethod
  catalog := [(("work", 1), {
    taskTypeRef := ⟨"work", 1, emptyHash⟩
    form := .primitive
    goalSignature := { signatureId := "work" }
    operatorRef := some ⟨"op", 1, emptyHash⟩ })]
  slotAuthorizations := ["aux", "extra"].map fun slot => (slot, ⟨.source, "a", 1, emptyHash⟩)

def sideHash : Workflow.Json → String := tabulated [
  ("[\"occ\",\"mi-g\",\"work\"]",
    "dbb7e61e0131bcfa749b70e093aac4204d0ad99beae089f51c5662b713883e80"),
  ("[\"task\",\"mi-g\",\"work\"]",
    "1f9f1c27d127dee9c87c7fad82091b83d7b453ba3815cf73782ba4ab978f19d8"),
  ("[\"occ\",\"mi-g\",\"aux\"]",
    "21483a550411a275783aaf50b20a7deaf7b8f71f86cb8f303547ae959dd91905"),
  ("[\"task\",\"mi-g\",\"aux\"]",
    "307c51283c1f99284793e8e5b893aac595396d7a3f266acf99028876209ec3fd"),
  ("[\"obl\",\"goal\",\"mi-g\",\"aux\"]",
    "824937a2cb879e6c49a47e737d718a61ef0e76e969962d764b1cf36b31749344"),
  ("[\"occ\",\"mi-g\",\"extra\"]",
    "b00262e23484a8ddbe8dfe5c133f9ca5023c296a885df8975935268472564a6f"),
  ("[\"task\",\"mi-g\",\"extra\"]",
    "90b23b1975fb07894e3c8179fc8712f08c34b563be52794c4c3ebfdf878ed0ad"),
  ("[\"obl\",\"goal\",\"mi-g\",\"extra\"]",
    "6cc5015b65e084421141992344bd735ee314dafebc1c3d34066841e2ebbe5d9f")]

def goalLedger (fuel : Int) : ObligationLedger :=
  ⟨3, [("goal", opened
    ⟨"goal", "m", ["r"], "g", "mission", none, none, .unsatisfied, none, none⟩ fuel)]⟩

def compileSide : Except Message RefinementCompilation :=
  compileRefinementBundle (fun _ => true) sideHash sideDraft side sideInputs

/-- The ledger's own way to admitting, as a commit path would supply it. -/
def byTheLedger (admission : DemandAdmission) : Work ObligationAccountView :=
  admitDemand admission.obligationId

/-- Whether a call was refused, and the duties that are there afterwards. -/
def sideOutcome (admitting : Admit) (fuel : Int) (compilation : RefinementCompilation) :
    Bool × List ObligationId :=
  let outcome := applyObligationOpenings compilation.delta [] admitting (goalLedger fuel)
  (outcome.1.toBool, keys outcome.2.accounts)

def sideOutcomes : (Bool × List ObligationId) × Bool × List ObligationId :=
  let first := "obl-824937a2cb879e6c49a47e737d718a61"
  ((false, ["goal", first]), (true, ["goal", first, "obl-6cc5015b65e084421141992344bd735e"]))

theorem side_outcomes : ∃ compilation, compileSide = .ok compilation ∧
    sideOutcome none 1 compilation = sideOutcomes.1 ∧
    sideOutcome (some byTheLedger) 2 compilation = sideOutcomes.2 := by
  have computed : compileSide.toOption.map (fun c =>
      (sideOutcome none 1 c, sideOutcome (some byTheLedger) 2 c)) = some sideOutcomes := by
    unfold compileSide sideHash
    rw [tabulated_eq_read]
    decide +kernel
  obtain ⟨compilation, compiled, both⟩ := toOption_map_eq_some.mp computed
  exact ⟨compilation, compiled, congrArg Prod.fst both, congrArg Prod.snd both⟩

/-- The second of the two duties is refused, and the first stays open. -/
theorem openings_left_behind : ∃ compilation refusal t, compileSide = .ok compilation ∧
    applyObligationOpenings compilation.delta [] none (goalLedger 1) = (.error refusal, t) ∧
    t ≠ goalLedger 1 := by
  obtain ⟨compilation, compiled, outcome, _⟩ := side_outcomes
  unfold sideOutcome at outcome
  cases ran : applyObligationOpenings compilation.delta [] none (goalLedger 1) with
  | mk result t =>
    simp only [ran] at outcome
    cases result with
    | ok shown => cases congrArg Prod.fst outcome
    | error refusal =>
      refine ⟨compilation, refusal, t, compiled, ran, ?_⟩
      intro same
      have listed : keys t.accounts = sideOutcomes.1.2 := congrArg Prod.snd outcome
      rw [same] at listed
      exact absurd listed (by decide)

theorem byTheLedger_routes : Routes byTheLedger := by
  intro admission s
  cases ran : admitDemand admission.obligationId s with
  | mk result t =>
    unfold byTheLedger
    rw [ran]
    cases result with
    | ok shown => rfl
    | error e => exact (admitDemand_atomic _).stopped ran

theorem openings_apply_to_side : ∃ compilation admissions shown t,
    compileSide = .ok compilation ∧ demandAdmissionsFor compilation.delta = .ok admissions ∧
    applyObligationOpenings compilation.delta [] (some byTheLedger) (goalLedger 2) =
      (.ok shown, t) ∧
    Applied [] (goalLedger 2) compilation.delta.obligationOpenings t := by
  obtain ⟨compilation, compiled, _, outcome⟩ := side_outcomes
  have applied := openings_apply_in_order compilation.delta [] (some byTheLedger)
    (by
      intro f given
      cases given
      exact byTheLedger_routes) (goalLedger 2)
  unfold sideOutcome at outcome
  cases ran : applyObligationOpenings compilation.delta [] (some byTheLedger) (goalLedger 2) with
  | mk result t =>
    rw [ran] at applied
    simp only [ran] at outcome
    cases result with
    | error refusal => cases congrArg Prod.fst outcome
    | ok shown =>
      cases asked : demandAdmissionsFor compilation.delta with
      | error e =>
        rw [asked] at applied
        cases applied
      | ok admissions =>
        rw [asked] at applied
        exact ⟨compilation, admissions, shown, t, compiled, asked, ran, applied⟩

end Obligations
