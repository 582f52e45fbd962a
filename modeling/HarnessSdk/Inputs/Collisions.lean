import HarnessSdk.Inputs.Placed

/-! The collisions a plan cannot see, and the plans that keep what they promise. -/
namespace Inputs
open PyDict PyText Checks Contracts Workflow
open Network (TaskRef OccurrenceId DataRequirement ResolutionProblem ResourceIdentity
  ResolvedInputBinding)

section
variable (platform : Platform) (rules : TargetRules) (manifest : InputManifest)

/-- Every entry can be written, and a binding finds the bytes it was promised at its place. -/
def Written (entries : List MaterialisationEntry) : Prop :=
  ∀ (β : Type) (digest : β → String) (blobs : Dict String β),
    (∀ entry ∈ entries, ∃ data,
      get? blobs entry.target.path = some data ∧ digest data = entry.contentHash) →
    ∃ paths files,
      materialiseManifest platform rules.caseInsensitive true entries blobs [] =
        .ok (paths, files) ∧
      keys files =
        entries.map (fun entry => platform.names rules.caseInsensitive entry.target.path) ∧
      ∀ b ∈ manifest.bindings, ∃ target data, place platform rules b = .ok target ∧
        get? files (platform.names rules.caseInsensitive target.path) = some data ∧
        digest data = b.bound.contentHash

structure Placed (entries : List MaterialisationEntry) : Prop where
  once : ∀ b ∈ manifest.bindings, ∃! entry, entry ∈ entries ∧ b.bindingId ∈ entry.bindingIds
  own : ∀ entry ∈ entries, ∀ b ∈ manifest.bindings, b.bindingId ∈ entry.bindingIds →
    entry.contentHash = b.bound.contentHash
  distinct : (entries.map fun entry =>
    platform.collationKey rules.caseInsensitive entry.target).Nodup
  inside : ∀ entry ∈ entries,
    entry.target.namespace = rules.namespace ∧ Beneath entry.target.path
  apart : ∀ entry ∈ entries, ∀ entry' ∈ entries,
    ¬ FileTree.Above (platform.names rules.caseInsensitive entry.target.path)
      (platform.names rules.caseInsensitive entry'.target.path)
  written : Written platform rules manifest entries

structure Habitable (path : String) : Prop where
  named : strip path ≠ ""
  beneath : Beneath path
  admitted : ∀ name ∈ posixParts path.toList, platform.admits name = true

/-- The places of the bindings do not collide in a way that the grouping cannot see: no place is
rooted, unnamed or on the way to another, and a second normalisation merges no two of them. -/
structure Clear : Prop where
  habitable : ∀ b ∈ manifest.bindings, ∀ target, place platform rules b = .ok target →
    Habitable platform target.path
  apart : ∀ b ∈ manifest.bindings, ∀ b' ∈ manifest.bindings, ∀ target target',
    place platform rules b = .ok target → place platform rules b' = .ok target' →
      ¬ FileTree.Above (platform.names rules.caseInsensitive target.path)
        (platform.names rules.caseInsensitive target'.path)
  unmerged : ∀ b ∈ manifest.bindings, ∀ b' ∈ manifest.bindings, ∀ target target',
    place platform rules b = .ok target → place platform rules b' = .ok target' →
      platform.collationKey rules.caseInsensitive target =
        platform.collationKey rules.caseInsensitive target' → Together platform rules b b'

end

section
variable {platform : Platform} {rules : TargetRules} {manifest : InputManifest}
  {entries : List MaterialisationEntry}

theorem together_of_exact (exact : rules.caseInsensitive = false) {a b : ResolvedInputBinding}
    {target target' : ResourceIdentity} (made : place platform rules a = .ok target)
    (made' : place platform rules b = .ok target')
    (same : platform.collationKey rules.caseInsensitive target =
      platform.collationKey rules.caseInsensitive target') : Together platform rules a b := by
  obtain ⟨aimed, ha, spelt⟩ := place_eq_ok.mp made
  obtain ⟨aimed', hb, spelt'⟩ := place_eq_ok.mp made'
  rw [spelled, exact, if_neg Bool.false_ne_true] at spelt spelt'
  cases spelt
  cases spelt'
  exact ⟨target, target', ha, hb, same⟩

section
variable (grouped : Grouped platform rules manifest entries)
include grouped

theorem Placed.clear
    (placed : Placed platform rules manifest entries) : Clear platform rules manifest := by
  have home : ∀ b ∈ manifest.bindings, ∀ target, place platform rules b = .ok target →
      ∃ entry ∈ entries, b.bindingId ∈ entry.bindingIds ∧ entry.target = target := by
    intro b bound target made
    obtain ⟨entry, inside, named⟩ := grouped.covered b bound
    have same := (grouped.own entry inside b bound named).2
    rw [made] at same
    exact ⟨entry, inside, named, (Except.ok.inj same).symm⟩
  have resolved : ∀ entry ∈ entries, ∃ names,
      resolvePath platform rules.caseInsensitive entry.target.path = .ok names := by
    have paths : (entries.map fun entry => entry.target.path).Nodup := by
      have differ := List.pairwise_map.mp placed.distinct
      refine List.pairwise_map.mpr (differ.imp_of_mem ?_)
      intro entry entry' inside inside' differ same
      have spaces := (placed.inside entry inside).1.trans (placed.inside entry' inside').1.symm
      refine differ ?_
      unfold Platform.collationKey
      rw [same, spaces]
    have verified := placed.written String id
      (entries.map fun entry => (entry.target.path, entry.contentHash))
    obtain ⟨_, _, made, _⟩ := verified fun entry inside =>
      ⟨_, get?_eq_some_of_mem (by simpa [keys, Function.comp_def] using paths)
        (List.mem_map.mpr ⟨entry, inside, rfl⟩), rfl⟩
    obtain ⟨_, made⟩ := then_eq_ok.mp made
    obtain ⟨_, made, _⟩ := bind_eq_ok.mp made
    exact resolved_of_write made
  refine ⟨?_, ?_, ?_⟩
  · intro b bound target made
    obtain ⟨entry, inside, _, rfl⟩ := home b bound target made
    obtain ⟨_, found⟩ := resolved entry inside
    obtain ⟨named, beneath, admitted, _⟩ := resolvePath_eq_ok.mp found
    exact ⟨named, beneath, admitted⟩
  · intro b bound b' bound' target target' made made'
    obtain ⟨entry, inside, _, rfl⟩ := home b bound target made
    obtain ⟨entry', inside', _, rfl⟩ := home b' bound' target' made'
    exact placed.apart entry inside entry' inside'
  · intro b bound b' bound' target target' made made' same
    obtain ⟨entry, inside, named, rfl⟩ := home b bound target made
    obtain ⟨entry', inside', named', rfl⟩ := home b' bound' target' made'
    obtain rfl := List.inj_on_of_nodup_map placed.distinct inside inside' same
    exact grouped.joined entry inside b bound b' bound' named named'

theorem written_of_clear
    (clear : Clear platform rules manifest)
    (distinct : (entries.map fun entry =>
      platform.collationKey rules.caseInsensitive entry.target).Nodup) :
    Written platform rules manifest entries := by
  have owner : ∀ entry ∈ entries, ∃ b ∈ manifest.bindings,
      place platform rules b = .ok entry.target := by
    intro entry inside
    obtain ⟨b, bound, named⟩ := grouped.some entry inside
    exact ⟨b, bound, (grouped.own entry inside b bound named).2⟩
  intro β digest blobs verified
  have canonical : ∀ entry ∈ entries, Canonical entry.target.path := by
    intro entry inside
    obtain ⟨b, bound, made⟩ := owner entry inside
    exact canonical_of_place made (clear.habitable b bound _ made).beneath
  have resolved : ∀ entry ∈ entries,
      resolvePath platform rules.caseInsensitive entry.target.path =
        .ok (platform.names rules.caseInsensitive entry.target.path) := by
    intro entry inside
    obtain ⟨b, bound, made⟩ := owner entry inside
    obtain ⟨named, beneath, admitted⟩ := clear.habitable b bound _ made
    exact resolvePath_eq_ok.mpr ⟨named, beneath, admitted, rfl⟩
  have found : ∀ entry ∈ entries, ∃ data, get? blobs entry.target.path = some data := by
    intro entry inside
    obtain ⟨data, here, _⟩ := verified entry inside
    exact ⟨data, here⟩
  have free : FileTree.Free
      (entries.map fun entry => platform.names rules.caseInsensitive entry.target.path) := by
    intro path here
    obtain ⟨entry, inside, rfl⟩ := List.mem_map.mp here
    refine ⟨names_ne_nil (canonical entry inside), fun path' there => ?_⟩
    obtain ⟨entry', inside', rfl⟩ := List.mem_map.mp there
    obtain ⟨b, bound, made⟩ := owner entry inside
    obtain ⟨b', bound', made'⟩ := owner entry' inside'
    exact clear.apart b bound b' bound' _ _ made made'
  have paths := @paths_of_chunks platform _ rules.caseInsensitive _ _ found
  have nodup : (keys (chunks platform rules.caseInsensitive blobs entries)).Nodup := by
    rw [keys, paths]
    refine List.pairwise_map.mpr ((List.pairwise_map.mp distinct).imp_of_mem ?_)
    intro entry entry' inside inside' differ same
    obtain ⟨b, _, made⟩ := owner entry inside
    obtain ⟨b', _, made'⟩ := owner entry' inside'
    exact differ (key_of_names (canonical entry inside) (canonical entry' inside')
      ((place_namespace made).trans (place_namespace made').symm) same)
  have ran : FileTree.writeAll [] (chunks platform rules.caseInsensitive blobs entries) =
      .ok (chunks platform rules.caseInsensitive blobs entries) := by
    refine (@FileTree.writeAll_eq_ok _ _ _ [] _ _ ?_).mpr ⟨?_, ofEntries_of_nodup nodup⟩
    · exact fun path here => absurd here List.not_mem_nil
    · rw [paths]
      exact free
  refine ⟨sorted (entries.map (·.target.path)),
    chunks platform rules.caseInsensitive blobs entries, ?_, paths, ?_⟩
  · rw [materialiseManifest, writeEntries_of_resolved found resolved, ran]
    rfl
  · intro b bound
    obtain ⟨entry, inside, named⟩ := grouped.covered b bound
    obtain ⟨hashed, made⟩ := grouped.own entry inside b bound named
    obtain ⟨data, here, digested⟩ := verified entry inside
    refine ⟨_, data, made, get?_eq_some_of_mem nodup ?_, digested.trans hashed⟩
    exact List.mem_filterMap.mpr ⟨entry, inside, by rw [here]; rfl⟩

end

theorem Clear.placed (grouped : Grouped platform rules manifest entries)
    (clear : Clear platform rules manifest) : Placed platform rules manifest entries := by
  have owner : ∀ entry ∈ entries, ∃ b ∈ manifest.bindings, b.bindingId ∈ entry.bindingIds ∧
      place platform rules b = .ok entry.target := by
    intro entry inside
    obtain ⟨b, bound, named⟩ := grouped.some entry inside
    exact ⟨b, bound, named, (grouped.own entry inside b bound named).2⟩
  have distinct : (entries.map fun entry =>
      platform.collationKey rules.caseInsensitive entry.target).Nodup := by
    refine List.pairwise_map.mpr (grouped.apart.imp_of_mem ?_)
    intro entry entry' inside inside' apart same
    obtain ⟨b, bound, named, made⟩ := owner entry inside
    obtain ⟨b', bound', named', made'⟩ := owner entry' inside'
    exact apart b bound b' bound' named named'
      (clear.unmerged b bound b' bound' _ _ made made' same)
  refine ⟨?_, ?_, distinct, ?_, ?_, written_of_clear grouped clear distinct⟩
  · intro b bound
    obtain ⟨entry, inside, named⟩ := grouped.covered b bound
    refine ⟨entry, ⟨inside, named⟩, ?_⟩
    rintro entry' ⟨inside', named'⟩
    have made := (grouped.own entry inside b bound named).2
    rw [(grouped.own entry' inside' b bound named').2] at made
    refine List.inj_on_of_nodup_map distinct inside' inside ?_
    rw [Except.ok.inj made]
  · exact fun entry inside b bound named => (grouped.own entry inside b bound named).1
  · intro entry inside
    obtain ⟨b, bound, _, made⟩ := owner entry inside
    exact ⟨place_namespace made, (clear.habitable b bound _ made).beneath⟩
  · intro entry inside entry' inside'
    obtain ⟨b, bound, _, made⟩ := owner entry inside
    obtain ⟨b', bound', _, made'⟩ := owner entry' inside'
    exact clear.apart b bound b' bound' _ _ made made'

end

/-- Resolution depends on no order of arrival; and a plan without problems keeps its promises
exactly when the places of its bindings are clear. -/
theorem resolved_alike_and_placed_iff_clear (platform : Platform) (rules : TargetRules)
    (printable : Char → Bool) (contentHashOf : Json → HashHex) :
    (∀ (consumer : Network.TaskSemanticBinding) (requirements requirements' : List DataRequirement)
      (accepted : AcceptedOutputsIndex) (outputs : List AcceptedOutput)
      (witnesses : Dict String Network.ValidityWitness) (policy : ResolutionPolicy)
      (consumerOccurrence : OccurrenceId),
      requirements.Perm requirements' → (requirements.map (·.requirementId)).Nodup →
      accepted.outputs.Perm outputs → (accepted.outputs.map AcceptedOutput.identity).Nodup →
      resolveDeclaredInputs printable contentHashOf consumer requirements'
          { accepted with outputs } witnesses policy consumerOccurrence =
        resolveDeclaredInputs printable contentHashOf consumer requirements accepted witnesses
          policy consumerOccurrence) ∧
    ∀ (manifest : InputManifest) (plan : MaterialisationPlan),
      materialisePlan platform printable manifest rules = .ok plan → plan.problems = [] →
        (Placed platform rules manifest plan.entries ↔ Clear platform rules manifest) := by
  constructor
  · intro consumer requirements requirements' accepted outputs witnesses policy
      consumerOccurrence asked distinct offered apart
    exact resolve_of_perm asked distinct offered apart printable contentHashOf consumer witnesses
      policy consumerOccurrence
  · intro manifest plan made clear
    have grouped := grouped_of_plan made clear
    exact ⟨fun placed => placed.clear grouped, fun clear => clear.placed grouped⟩

def plainPlatform : Platform where
  fold := fun c => [c]
  admits := fun _ => true
  slash := rfl

def workRules : TargetRules where
  «namespace» := "work"

def schemaHere : Network.VersionedRef where
  id := "schema:file"
  version := 1
  contentHash := "0000000000000000000000000000000000000000000000000000000000000000"

def artifactAt (bindingId contentHash path : String) : ResolvedInputBinding where
  bindingId
  bound := {
    requirementId := bindingId
    producerResultId := "result:" ++ bindingId
    acceptanceId := "acceptance:" ++ bindingId
    artifactId := "artifact:" ++ bindingId
    contentHash
    schemaRef := schemaHere
    sourceRevision := "1" }
  producerTaskRef := "task:producer"
  producerOccurrence := "occ:producer"
  outputPort := bindingId
  consumerTaskRef := "task:consumer"
  inputPort := bindingId
  sourceIdentity := ⟨"out", path⟩
  producedSchemaRef := schemaHere
  readPolicy := "exact"
  freshnessPolicy := "fresh"
  disclosureScope := "mission"

def twoArtifacts (first second : String) : InputManifest where
  consumerTaskRef := "task:consumer"
  bindings := [
    artifactAt "a" "1111111111111111111111111111111111111111111111111111111111111111" first,
    artifactAt "b" "2222222222222222222222222222222222222222222222222222222222222222" second]
  bindingsDistinct := by simp [artifactAt]

def twoEntries (first second : String) : MaterialisationPlan where
  consumerTaskRef := "task:consumer"
  entries := [
    ⟨⟨"work", first⟩, "1111111111111111111111111111111111111111111111111111111111111111",
      ["artifact:a"], ["a"], ["a"]⟩,
    ⟨⟨"work", second⟩, "2222222222222222222222222222222222222222222222222222222222222222",
      ["artifact:b"], ["b"], ["b"]⟩]

/-- A file, and another in a directory of the same name: the plan reports no problem, and cannot
be written. -/
theorem nested_place_unseen :
    materialisePlan plainPlatform (fun _ => true) (twoArtifacts "data" "data/table.csv")
        workRules = .ok (twoEntries "data" "data/table.csv") ∧
      ¬ Placed plainPlatform workRules (twoArtifacts "data" "data/table.csv")
        (twoEntries "data" "data/table.csv").entries := by
  refine ⟨by decide +kernel, fun placed => ?_⟩
  refine placed.apart _ List.mem_cons_self _ (List.mem_cons_of_mem _ List.mem_cons_self) ?_
  decide +kernel

def zeroDigest : HashHex where
  text := schemaHere.contentHash
  wellFormed := by decide

/-- The SHA-256 digests of the two payloads. -/
def bindingDigest : Json → HashHex
  | .obj ((_, .str "need:left") :: _) =>
    ⟨"7e87c7fea4bb1549d43eebb90e6a05f48fd601500f28d46415753b36630fa866", by decide⟩
  | .obj ((_, .str "need:right") :: _) =>
    ⟨"c94eb9310d03d6cf85b23854ae787dd1c66055b6f94ca684f4dd1ac20c1d00d0", by decide⟩
  | _ => zeroDigest

def outputOf (artifactId : String) : AcceptedOutput where
  producerOccurrence := "occ:producer"
  producerTaskRef := "task:producer"
  outputPort := artifactId
  producerResultId := "result:" ++ artifactId
  acceptanceId := "acceptance:" ++ artifactId
  supportRevision := 1
  artifactId
  contentHash := schemaHere.contentHash
  schemaRef := schemaHere
  sourceRevision := "1"
  sourceIdentity := ⟨"out", artifactId⟩

def needOf (inputPort : String) : DataRequirement where
  requirementId := "need:" ++ inputPort
  producerOccurrence := "occ:producer"
  outputPort := inputPort
  consumerOccurrence := "occ:consumer"
  inputPort
  schemaRef := schemaHere
  assurancePolicyRef := "assurance"
  freshnessPolicyRef := "fresh"

def consumerTask : Network.TaskSemanticBinding where
  taskId := "task:consumer"
  obligationId := "obligation"
  form := .primitive
  goalSignature := { signatureId := "goal" }
  inputPorts := [
    { portKey := "left", schemaRef := schemaHere },
    { portKey := "right", schemaRef := schemaHere }]

def offered (outputs : List AcceptedOutput) : AcceptedOutputsIndex where
  outputs
  completedProducers := ["occ:producer"]

def resolveSides (requirements : List DataRequirement) (outputs : List AcceptedOutput) :
    Except Message ResolutionResult :=
  resolveDeclaredInputs (fun _ => true) bindingDigest consumerTask requirements (offered outputs)
    [] { requireWitness := false } "occ:consumer"

/-- Two requirements and two outputs exchanged, and two files side by side. -/
theorem resolved_alike_and_placed_beside :
    resolveSides [needOf "right", needOf "left"] [outputOf "right", outputOf "left"] =
        resolveSides [needOf "left", needOf "right"] [outputOf "left", outputOf "right"] ∧
      (resolveSides [needOf "left", needOf "right"] [outputOf "left", outputOf "right"]).map
          (fun result => (result.manifest.map fun manifest =>
            manifest.bindings.map (·.bound.artifactId), result.problems)) =
        .ok (some ["left", "right"], []) ∧
      Placed plainPlatform workRules (twoArtifacts "data" "table.csv")
        (twoEntries "data" "table.csv").entries := by
  have places : (twoArtifacts "data" "table.csv").bindings.map (place plainPlatform workRules) =
      [.ok ⟨"work", "data"⟩, .ok ⟨"work", "table.csv"⟩] := by
    decide +kernel
  have placed : ∀ b ∈ (twoArtifacts "data" "table.csv").bindings, ∀ target,
      place plainPlatform workRules b = .ok target →
        target = ⟨"work", "data"⟩ ∨ target = ⟨"work", "table.csv"⟩ := by
    intro b bound target made
    have inside := List.mem_map_of_mem (f := place plainPlatform workRules) bound
    rw [places, made] at inside
    simpa using inside
  refine ⟨?_, by decide +kernel, ?_⟩
  · exact (resolved_alike_and_placed_iff_clear plainPlatform workRules _ _).1 _ _ _
      (offered [outputOf "left", outputOf "right"]) [outputOf "right", outputOf "left"] _ _ _
      (List.Perm.swap _ _ _) (by decide) (List.Perm.swap _ _ _) (by decide)
  · refine ((resolved_alike_and_placed_iff_clear plainPlatform workRules (fun _ => true)
      fun _ => zeroDigest).2 _ (twoEntries "data" "table.csv") (by decide +kernel) rfl).mpr
      ⟨?_, ?_, ?_⟩
    · intro b bound target made
      rcases placed b bound target made with rfl | rfl
      · exact ⟨by decide +kernel, ⟨by decide +kernel, by decide +kernel⟩, fun _ _ => rfl⟩
      · exact ⟨by decide +kernel, ⟨by decide +kernel, by decide +kernel⟩, fun _ _ => rfl⟩
    · intro b bound b' bound' target target' made made'
      rcases placed b bound target made with rfl | rfl <;>
        rcases placed b' bound' target' made' with rfl | rfl <;> decide +kernel
    · intro b bound b' bound' target target' made made' same
      exact together_of_exact rfl made made' same

end Inputs
