import HarnessSdk.Network.Documents

/-! The members of one revision that the next retires, or gives other inputs. -/
namespace Network
open PyDict PyText Checks

inductive TargetKind
  | retiring
  | inputReplaced
deriving DecidableEq

structure ConvergenceTarget where
  occurrenceId : OccurrenceId
  taskId : TaskRef
  expectedGeneration : Nat
  targetKind : TargetKind
deriving DecidableEq

structure ConvergenceImpact where
  missionId : String
  sourceRevision : Nat
  targets : List ConvergenceTarget
  preservedOccurrences : List OccurrenceId
deriving DecidableEq

def TaskSemanticBinding.versions (binding : TaskSemanticBinding) : String × Nat × Nat × Nat :=
  (binding.contractHash, binding.contractRevision, binding.inputBindingRevision,
    binding.dispatchGeneration)

namespace TaskNetwork
variable (network : TaskNetwork)

/-- A dictionary lookup by task id: a missing key stops the caller. -/
def bindingForTask (id : TaskRef) : Except Message TaskSemanticBinding :=
  match network.bindingForTask? id with
  | none => .error [.text "KeyError: ", .repr id]
  | some binding => .ok binding

def bindingForOccurrence (id : OccurrenceId) : Except Message TaskSemanticBinding :=
  match network.occurrence? id with
  | none => .error [.text "KeyError: ", .repr id]
  | some spec => network.bindingForTask spec.taskId

def inputsOf (id : OccurrenceId) : List DataRequirement :=
  network.dataRequirements.filter (·.consumerOccurrence = id)

end TaskNetwork

/-- Whether a member is retired, or kept with another binding or other inputs. The canonical texts
of the inputs are compared as sorted lists, so the inputs are compared as bags. -/
def memberChange (old new : TaskNetwork) (member : MemberPin) (replacement : Option MemberPin) :
    Except Message (Option TargetKind) :=
  match replacement with
  | none => .ok (some .retiring)
  | some replacement => do
    let binding ← old.bindingForTask member.taskId
    require (replacement.taskId = member.taskId)
      [.text "TASKGRAPH_OCCURRENCE_TASK_IDENTITY_CHANGED"]
    let fresh ← new.bindingForTask replacement.taskId
    if binding.versions = fresh.versions ∧
        (old.inputsOf member.occurrenceId).isPerm (new.inputsOf member.occurrenceId) then
      .ok none
    else .ok (some .inputReplaced)

/-- One round of the loop over the old members: sharing cannot preserve work whose meaning is
changed. -/
def judgeMember (old new : TaskNetwork) (newPins : RevisionPins) (affected : List OccurrenceId)
    (member : MemberPin) : Except Message (Option ConvergenceTarget) := do
  let binding ← old.bindingForTask member.taskId
  let change ← memberChange old new member
    (newPins.memberPins.find? (·.occurrenceId = member.occurrenceId))
  require (¬ (change.isSome = true ∧ member.occurrenceId ∈ affected ∧
      member.occurrenceId ∈ newPins.demandRefs.map (·.producerOccurrenceId)))
    [.text "TASKGRAPH_SHARED_PRODUCER_BINDING_CHANGED"]
  .ok (change.map fun kind => {
    occurrenceId := member.occurrenceId
    taskId := member.taskId
    expectedGeneration := binding.dispatchGeneration
    targetKind := kind })

def computeConvergenceImpact (slotHash : ChildBinding → String)
    (before candidate : NetworkDocument) : Except Message ConvergenceImpact := do
  require (before.missionId = candidate.missionId ∧ candidate.revision = before.revision + 1)
    [.text "TASKGRAPH_IMPACT_REVISION_MISMATCH"]
  let old ← before.decode
  let new ← candidate.decode
  let oldPins ← buildRevisionPins slotHash before
  let newPins ← buildRevisionPins slotHash candidate
  let retired := before.adoptedInstanceIds.filter (· ∉ candidate.adoptedInstanceIds)
  let affected := (oldPins.demandRefs.filter (·.consumerInstanceId ∈ retired)).map
    (·.producerOccurrenceId)
  let judged ← oldPins.memberPins.mapM fun member =>
    (judgeMember old.toTaskNetwork new.toTaskNetwork newPins affected member).map fun target =>
      (member.occurrenceId, target)
  .ok {
    missionId := before.missionId
    sourceRevision := before.revision
    targets := judged.filterMap Prod.snd
    preservedOccurrences := (judged.filter fun one =>
      one.2.isNone && one.1 ∈ affected).map Prod.fst }

theorem memberChange_none {old new : TaskNetwork} {member : MemberPin}
    {replacement : Option MemberPin} (made : memberChange old new member replacement = .ok none) :
    (old.inputsOf member.occurrenceId).Perm (new.inputsOf member.occurrenceId) := by
  cases replacement with
  | none => cases made
  | some replacement =>
    obtain ⟨binding, _, made⟩ := bind_eq_ok.mp made
    obtain ⟨_, made⟩ := then_eq_ok.mp made
    obtain ⟨fresh, _, made⟩ := bind_eq_ok.mp made
    split at made
    · case isTrue same => exact List.isPerm_iff.mp same.2
    · cases made

theorem judgeMember_eq_ok {old new : TaskNetwork} {newPins : RevisionPins}
    {affected : List OccurrenceId} {member : MemberPin} {target : Option ConvergenceTarget}
    (made : judgeMember old new newPins affected member = .ok target) :
    (∀ one ∈ target, one.occurrenceId = member.occurrenceId) ∧
      (target = none →
        (old.inputsOf member.occurrenceId).Perm (new.inputsOf member.occurrenceId)) := by
  obtain ⟨binding, _, made⟩ := bind_eq_ok.mp made
  obtain ⟨change, judged, made⟩ := bind_eq_ok.mp made
  obtain ⟨_, made⟩ := then_eq_ok.mp made
  cases made
  constructor
  · intro one inside
    obtain ⟨kind, _, rfl⟩ := Option.map_eq_some_iff.mp inside
    rfl
  · intro none
    rw [Option.map_eq_none_iff.mp none] at judged
    exact memberChange_none judged

section
variable {slotHash : ChildBinding → String} {before candidate : NetworkDocument}
  {old new : TaskNetworkSnapshot} {impact : ConvergenceImpact}

theorem inputs_of_untargeted (decoded : before.decode = .ok old)
    (candidateDecoded : candidate.decode = .ok new)
    (computed : computeConvergenceImpact slotHash before candidate = .ok impact)
    {spec : OccurrenceSpec} (inside : spec ∈ old.occurrences)
    (untargeted : spec.occurrenceId ∉ impact.targets.map (·.occurrenceId)) :
    (old.inputsOf spec.occurrenceId).Perm (new.inputsOf spec.occurrenceId) := by
  unfold computeConvergenceImpact at computed
  obtain ⟨_, computed⟩ := then_eq_ok.mp computed
  obtain ⟨_, again, computed⟩ := bind_eq_ok.mp computed
  rw [decoded] at again
  cases again
  obtain ⟨_, again, computed⟩ := bind_eq_ok.mp computed
  rw [candidateDecoded] at again
  cases again
  obtain ⟨oldPins, built, computed⟩ := bind_eq_ok.mp computed
  obtain ⟨newPins, _, computed⟩ := bind_eq_ok.mp computed
  obtain ⟨judged, rounds, computed⟩ := bind_eq_ok.mp computed
  cases computed
  have pinned : (⟨spec.occurrenceId, spec.taskId⟩ : MemberPin) ∈ oldPins.memberPins := by
    refine ((buildRevisionPins_eq_ok decoded built).1 _).mpr ⟨spec, inside, ?_⟩
    obtain ⟨binding, found, _⟩ := old.consistent.bound spec inside
    rw [TaskNetwork.memberPin, found]
  obtain ⟨one, listed, made⟩ := round_of_mapM rounds pinned
  obtain ⟨target, judgement, rfl⟩ := map_eq_ok.mp made
  obtain ⟨named, kept⟩ := judgeMember_eq_ok judgement
  cases target with
  | none => exact kept rfl
  | some target =>
    exact absurd (List.mem_map.mpr
      ⟨target, List.mem_filterMap.mpr ⟨_, listed, rfl⟩, named target rfl⟩) untargeted

end

end Network
