import HarnessSdk.Network.Documents

/-! The difference of two documents of a plan: which objects were added, removed or changed. -/
namespace Network
open PyDict PyText Checks Workflow

def diffRefusal (reason : String) : Message := [.text s!"TASKGRAPH_DIFF_INVALID: {reason}"]

abbrev ObjectKey := String × String

def NetworkObject.kind : NetworkObject → String
  | .occurrence _ => "occurrence"
  | .taskSemantics _ => "task_semantics"
  | .methodInstance _ => "method_instance"
  | .orderConstraint _ => "order_constraint"
  | .dataRequirement _ => "data_requirement"
  | .typedEdge _ => "typed_edge"
  | .obligationCoverage _ => "obligation_coverage"

/-- `_identity`; an object without an id is named by its content. -/
def NetworkObject.identity (contentHash : NetworkObject → String) : NetworkObject → String
  | .occurrence spec => spec.occurrenceId
  | .taskSemantics binding =>
    canonicalJson (.arr [.str binding.taskId, .int binding.contractRevision])
  | .methodInstance draft => draft.instanceId
  | .orderConstraint constraint =>
    canonicalJson (.arr [.str constraint.before, .str constraint.after])
  | .dataRequirement requirement => requirement.requirementId
  | .typedEdge edge => contentHash (.typedEdge edge)
  | .obligationCoverage coverage => contentHash (.obligationCoverage coverage)

structure StructuralChange where
  kind : String
  identity : String
  beforeHash : Option String
  afterHash : Option String
deriving DecidableEq

def StructuralChange.key (change : StructuralChange) : ObjectKey := (change.kind, change.identity)

def diffIdentifier (value name : String) : Except Message Unit :=
  require (stripChars value.toList ≠ [] ∧ value.length ≤ 512)
    (diffRefusal s!"{name} must be a nonempty identifier of at most 512 characters")

def StructuralChange.check (change : StructuralChange) : Except Message Unit := do
  diffIdentifier change.kind "kind"
  diffIdentifier change.identity "identity"
  require (change.beforeHash ≠ change.afterHash)
    (diffRefusal "a change must have different hashes and at least one object")

structure TaskGraphDiff where
  missionId : String
  fromRevision : Nat
  toRevision : Nat
  fromManifestHash : String
  toManifestHash : String
  changes : List StructuralChange
deriving DecidableEq

def sortedChanges (changes : List StructuralChange) : List StructuralChange :=
  sortedByKeys (fun change => [change.kind, change.identity]) changes

def maxChanges : Nat := 16384

def maxRevision : Nat := 2 ^ 53 - 1

def TaskGraphDiff.made (diff : TaskGraphDiff) : Except Message TaskGraphDiff := do
  diffIdentifier diff.missionId "mission_id"
  require (diff.fromRevision ≤ maxRevision)
    (diffRefusal "from_revision must be a nonnegative safe integer")
  require (diff.toRevision ≤ maxRevision)
    (diffRefusal "to_revision must be a nonnegative safe integer")
  require (diff.changes.length ≤ maxChanges) (diffRefusal "changes must be a bounded sequence")
  let changes := sortedChanges diff.changes
  require (changes.map (·.key)).Nodup (diffRefusal "duplicate change identity")
  require (diff.fromRevision = diff.toRevision →
      diff.fromManifestHash = diff.toManifestHash ∧ changes = [])
    (diffRefusal "one immutable revision cannot have two structures")
  require (diff.fromManifestHash = diff.toManifestHash →
      diff.fromRevision = diff.toRevision ∧ changes = [])
    (diffRefusal "identical documents must have the same revision and no changes")
  .ok { diff with changes }

section
variable (contentHash : NetworkObject → String) (manifestHash : NetworkDocument → String)

def NetworkDocument.hashes (document : NetworkDocument) : Dict ObjectKey String :=
  ofEntries (document.objects.map fun item => ((item.kind, item.identity contentHash), contentHash item))

def changedKeys (old new : Dict ObjectKey String) : List ObjectKey :=
  (sortedByKeys (fun key => [key.1, key.2]) (fromkeys (keys old ++ keys new))).filter fun key =>
    get? old key ≠ get? new key

def changesBetween (old new : Dict ObjectKey String) : List StructuralChange :=
  (changedKeys old new).map fun key => ⟨key.1, key.2, get? old key, get? new key⟩

def diffDocuments (before after : NetworkDocument) : Except Message TaskGraphDiff := do
  require (before.missionId = after.missionId) (diffRefusal "source missions differ")
  let _ ← before.decode
  let _ ← after.decode
  let changes := changesBetween (before.hashes contentHash) (after.hashes contentHash)
  require (changes.length ≤ maxChanges)
    (diffRefusal "complete difference exceeds the public contract capacity")
  every StructuralChange.check changes
  TaskGraphDiff.made {
    missionId := before.missionId
    fromRevision := before.revision
    toRevision := after.revision
    fromManifestHash := manifestHash before
    toManifestHash := manifestHash after
    changes }

end

def StructuralChange.apply (hashes : Dict ObjectKey String) (change : StructuralChange) :
    Dict ObjectKey String :=
  match change.afterHash with
  | none => hashes.filter (·.1 ≠ change.key)
  | some hash => set hashes change.key hash

def StructuralChange.swapped (change : StructuralChange) : StructuralChange :=
  { change with beforeHash := change.afterHash, afterHash := change.beforeHash }

def TaskGraphDiff.swapped (diff : TaskGraphDiff) : TaskGraphDiff where
  missionId := diff.missionId
  fromRevision := diff.toRevision
  toRevision := diff.fromRevision
  fromManifestHash := diff.toManifestHash
  toManifestHash := diff.fromManifestHash
  changes := diff.changes.map .swapped

theorem mem_changedKeys {old new : Dict ObjectKey String} {key : ObjectKey} :
    key ∈ changedKeys old new ↔ get? old key ≠ get? new key := by
  rw [changedKeys, List.mem_filter, mem_sortedByKeys, mem_fromkeys, List.mem_append,
    decide_eq_true_eq]
  refine and_iff_right_of_imp fun differ => ?_
  by_contra neither
  rw [not_or, ← get?_eq_none_iff, ← get?_eq_none_iff] at neither
  exact differ (neither.1.trans neither.2.symm)

theorem changedKeys_swap (old new : Dict ObjectKey String) :
    changedKeys new old = changedKeys old new := by
  have same : (fromkeys (keys new ++ keys old)).Perm (fromkeys (keys old ++ keys new)) := by
    refine (List.perm_ext_iff_of_nodup fromkeys_nodup fromkeys_nodup).mpr fun key => ?_
    rw [mem_fromkeys, mem_fromkeys, List.mem_append, List.mem_append, or_comm]
  rw [changedKeys, changedKeys, sortedByKeys_of_perm same fun a _ b _ keys => by
    simpa [Prod.ext_iff] using keys]
  exact List.filter_congr fun key _ => by simp [eq_comm]

theorem changesBetween_swap (old new : Dict ObjectKey String) :
    changesBetween new old = (changesBetween old new).map .swapped := by
  rw [changesBetween, changesBetween, changedKeys_swap, List.map_map]
  rfl

theorem StructuralChange.check_swapped (change : StructuralChange) :
    change.swapped.check = .ok () ↔ change.check = .ok () := by
  simp only [check, swapped, then_eq_ok, require_eq_ok, ne_comm]

theorem sortedChanges_swapped (changes : List StructuralChange) :
    sortedChanges (changes.map .swapped) = (sortedChanges changes).map .swapped :=
  (List.map_insertionSort _ _ StructuralChange.swapped _ fun _ _ _ _ => Iff.rfl).symm

theorem TaskGraphDiff.made_eq_ok {diff made : TaskGraphDiff} (ok : diff.made = .ok made) :
    made = { diff with changes := sortedChanges diff.changes } := by
  unfold TaskGraphDiff.made at ok
  simp only [then_eq_ok] at ok
  exact (Except.ok.inj ok.2.2.2.2.2.2.2).symm

theorem TaskGraphDiff.made_swapped {diff made : TaskGraphDiff} (ok : diff.made = .ok made) :
    diff.swapped.made = .ok made.swapped := by
  unfold TaskGraphDiff.made at ok ⊢
  simp only [then_eq_ok, require_eq_ok] at ok ⊢
  obtain ⟨mission, first, second, bounded, distinct, revision, manifest, same⟩ := ok
  cases same
  have keys : ((sortedChanges diff.changes).map StructuralChange.swapped).map StructuralChange.key =
      (sortedChanges diff.changes).map StructuralChange.key := by
    rw [List.map_map]
    rfl
  simp only [swapped, sortedChanges_swapped, List.length_map, List.map_eq_nil_iff]
  refine ⟨mission, second, first, bounded, keys ▸ distinct, fun same => ?_, fun same => ?_, trivial⟩
  · exact (revision same.symm).imp_left Eq.symm
  · exact (manifest same.symm).imp_left Eq.symm

theorem get?_apply (hashes : Dict ObjectKey String) (change : StructuralChange) (key : ObjectKey) :
    get? (change.apply hashes) key = if key = change.key then change.afterHash else get? hashes key := by
  unfold StructuralChange.apply
  split
  next gone => rw [get?_erase, gone]
  next hash kept =>
    rw [get?_set, kept]
    simp only [eq_comm]

theorem get?_applyAll {new : Dict ObjectKey String} {changes : List StructuralChange}
    (leads : ∀ change ∈ changes, change.afterHash = get? new change.key) (hashes : Dict ObjectKey String)
    (key : ObjectKey) :
    get? (changes.foldl StructuralChange.apply hashes) key =
      if key ∈ changes.map (·.key) then get? new key else get? hashes key := by
  induction changes generalizing hashes with
  | nil => simp
  | cons change rest ih =>
    rw [List.forall_mem_cons] at leads
    rw [List.foldl_cons, ih leads.2, get?_apply]
    simp only [List.map_cons, List.mem_cons]
    by_cases here : key = change.key
    · subst here
      simp [leads.1]
    · simp [here]

section
variable {contentHash : NetworkObject → String} {manifestHash : NetworkDocument → String}

theorem diffDocuments_eq_ok {before after : NetworkDocument} {diff : TaskGraphDiff} :
    diffDocuments contentHash manifestHash before after = .ok diff ↔
      before.missionId = after.missionId ∧ (∃ snapshot, before.decode = .ok snapshot) ∧
      (∃ snapshot, after.decode = .ok snapshot) ∧
      (changesBetween (before.hashes contentHash) (after.hashes contentHash)).length ≤ maxChanges ∧
      (∀ change ∈ changesBetween (before.hashes contentHash) (after.hashes contentHash),
        change.check = .ok ()) ∧
      TaskGraphDiff.made ⟨before.missionId, before.revision, after.revision, manifestHash before,
        manifestHash after, changesBetween (before.hashes contentHash) (after.hashes contentHash)⟩ =
          .ok diff := by
  unfold diffDocuments
  rw [then_eq_ok, require_eq_ok, bind_eq_ok]
  refine and_congr_right fun _ => ?_
  rw [← exists_and_right]
  refine exists_congr fun _ => and_congr_right fun _ => ?_
  rw [bind_eq_ok, ← exists_and_right]
  refine exists_congr fun _ => and_congr_right fun _ => ?_
  rw [then_eq_ok, then_eq_ok, require_eq_ok, every_eq_ok]

/-- The changes lead from one document's hashes to the other's, there are none where these agree,
and backwards the difference is the same one swapped. -/
theorem diffDocuments_sound (contentHash : NetworkObject → String)
    (manifestHash : NetworkDocument → String) (before after : NetworkDocument) (diff : TaskGraphDiff)
    (done : diffDocuments contentHash manifestHash before after = .ok diff) :
    (∀ key, get? (diff.changes.foldl StructuralChange.apply (before.hashes contentHash)) key =
      get? (after.hashes contentHash) key) ∧
    (diff.changes = [] ↔
      ∀ key, get? (before.hashes contentHash) key = get? (after.hashes contentHash) key) ∧
    diffDocuments contentHash manifestHash after before = .ok diff.swapped := by
  have ran := diffDocuments_eq_ok.mp done
  obtain ⟨mission, decoded, decoded', bounded, checked, made⟩ := ran
  have carried := TaskGraphDiff.made_eq_ok made
  have member : ∀ change, change ∈ diff.changes ↔
      change ∈ changesBetween (before.hashes contentHash) (after.hashes contentHash) := by
    intro change
    rw [carried, sortedChanges, mem_sortedByKeys]
  have named : ∀ key, key ∈ diff.changes.map (·.key) ↔
      get? (before.hashes contentHash) key ≠ get? (after.hashes contentHash) key := by
    intro key
    rw [← mem_changedKeys, List.mem_map]
    constructor
    · rintro ⟨change, inside, rfl⟩
      obtain ⟨key, listed, rfl⟩ := List.mem_map.mp ((member change).mp inside)
      exact listed
    · exact fun listed => ⟨_, (member _).mpr (List.mem_map_of_mem listed), rfl⟩
  refine ⟨fun key => ?_, ?_, ?_⟩
  · rw [get?_applyAll fun change inside => by
      obtain ⟨_, _, rfl⟩ := List.mem_map.mp ((member change).mp inside)
      rfl]
    by_cases differ : key ∈ diff.changes.map (·.key)
    · rw [if_pos differ]
    · rw [if_neg differ]
      exact not_not.mp (mt (named key).mpr differ)
  · rw [← List.map_eq_nil_iff (f := StructuralChange.key), List.eq_nil_iff_forall_not_mem]
    exact forall_congr' fun key => by rw [named, not_not]
  · refine diffDocuments_eq_ok.mpr ⟨mission.symm, decoded', decoded, ?_, ?_, ?_⟩
    · rwa [changesBetween_swap, List.length_map]
    · rw [changesBetween_swap]
      exact List.forall_mem_map.mpr fun change inside =>
        change.check_swapped.mpr (checked change inside)
    · rw [changesBetween_swap, ← mission]
      have backwards := TaskGraphDiff.made_swapped made
      rwa [TaskGraphDiff.swapped] at backwards

end

def dutyOf : NetworkObject → String
  | .occurrence spec => spec.obligationId
  | .taskSemantics binding => binding.obligationId
  | _ => ""

def dutyDocument (revision : Nat) (duties : List (TaskRef × ObligationId)) : NetworkDocument where
  missionId := "m"
  revision := revision
  objects := duties.flatMap fun duty =>
    [.occurrence { occurrenceId := duty.1, taskId := duty.1, obligationId := duty.2
                   form := .primitive },
      .taskSemantics { taskId := duty.1, obligationId := duty.2, form := .primitive
                       goalSignature := { signatureId := duty.1 }
                       operatorRef := some ⟨"op", 1, duty.1⟩ }]

def printedRevision (document : NetworkDocument) : String := toString document.revision

/-- One task changes its duty, one is removed and one added. -/
theorem diffDocuments_sound_moved :
    let before := dutyDocument 0 [("a", "ship"), ("b", "ship")]
    let after := dutyDocument 1 [("a", "sell"), ("c", "ship")]
    ∃ diff, diffDocuments dutyOf printedRevision before after = .ok diff ∧
      diff.changes.filter (·.kind = "occurrence") =
        [⟨"occurrence", "a", some "ship", some "sell"⟩, ⟨"occurrence", "b", some "ship", none⟩,
          ⟨"occurrence", "c", none, some "ship"⟩] ∧
      (∀ key, get? (diff.changes.foldl StructuralChange.apply (before.hashes dutyOf)) key =
        get? (after.hashes dutyOf) key) ∧
      diffDocuments dutyOf printedRevision after before = .ok diff.swapped := by
  intro before after
  have changed : (diffDocuments dutyOf printedRevision before after).toOption.map
      (fun diff => diff.changes.filter (·.kind = "occurrence")) =
        some [⟨"occurrence", "a", some "ship", some "sell"⟩, ⟨"occurrence", "b", some "ship", none⟩,
          ⟨"occurrence", "c", none, some "ship"⟩] := by
    decide +kernel
  obtain ⟨diff, done, changes⟩ := toOption_map_eq_some.mp changed
  obtain ⟨applied, _, swapped⟩ := diffDocuments_sound _ _ _ _ _ done
  exact ⟨diff, done, changes, applied, swapped⟩

end Network
