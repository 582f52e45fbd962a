import HarnessSdk.Inputs.Placement

/-! What a plan without problems promises, and when it keeps the promise. -/
namespace Inputs
open PyDict PyText Checks Contracts Workflow
open Network (TaskRef ResolutionProblem ResourceIdentity ResolvedInputBinding)

def place (platform : Platform) (rules : TargetRules) (binding : ResolvedInputBinding) :
    Except Message ResourceIdentity := do
  let target ← rules.targetFor binding
  spelled platform rules target

structure Beneath (path : String) : Prop where
  relative : posixRoot path.toList = []
  stays : ['.', '.'] ∉ posixParts path.toList

section
variable (platform : Platform) (rules : TargetRules)

def Together (a b : ResolvedInputBinding) : Prop :=
  ∃ target target', rules.targetFor a = .ok target ∧ rules.targetFor b = .ok target' ∧
    platform.collationKey rules.caseInsensitive target =
      platform.collationKey rules.caseInsensitive target'

/-- What the groups of a plan without problems are, entry by entry. -/
structure Grouped (manifest : InputManifest) (entries : List MaterialisationEntry) : Prop where
  covered : ∀ b ∈ manifest.bindings, ∃ entry ∈ entries, b.bindingId ∈ entry.bindingIds
  some : ∀ entry ∈ entries, ∃ b ∈ manifest.bindings, b.bindingId ∈ entry.bindingIds
  own : ∀ entry ∈ entries, ∀ b ∈ manifest.bindings, b.bindingId ∈ entry.bindingIds →
    entry.contentHash = b.bound.contentHash ∧ place platform rules b = .ok entry.target
  joined : ∀ entry ∈ entries, ∀ b ∈ manifest.bindings, ∀ b' ∈ manifest.bindings,
    b.bindingId ∈ entry.bindingIds → b'.bindingId ∈ entry.bindingIds →
      Together platform rules b b'
  apart : entries.Pairwise fun entry entry' => ∀ b ∈ manifest.bindings, ∀ b' ∈ manifest.bindings,
    b.bindingId ∈ entry.bindingIds → b'.bindingId ∈ entry'.bindingIds →
      ¬ Together platform rules b b'

end

section
variable {platform : Platform} {printable : Char → Bool} {rules : TargetRules}

variable {binding : ResolvedInputBinding} {target final : ResourceIdentity} {key : String × String}
  {members : List Aimed} {entry : MaterialisationEntry} {manifest : InputManifest}
  {plan : MaterialisationPlan}

theorem targetFor_namespace (made : rules.targetFor binding = .ok target) :
    target.namespace = rules.namespace :=
  identity_namespace made

theorem spelled_namespace (made : spelled platform rules target = .ok final) :
    final.namespace = target.namespace := by
  unfold spelled at made
  split at made
  · exact identity_namespace made
  · cases made
    rfl

theorem spelled_congr {target' : ResourceIdentity} (spaces : target.namespace = target'.namespace)
    (same : platform.collationKey rules.caseInsensitive target = platform.collationKey
      rules.caseInsensitive target') :
    spelled platform rules target = spelled platform rules target' := by
  unfold Platform.collationKey at same
  unfold spelled
  cases folded : rules.caseInsensitive with
  | true =>
    rw [folded, if_pos rfl, if_pos rfl, Prod.mk.injEq] at same
    rw [if_pos rfl, if_pos rfl, spaces, same.2]
  | false =>
    simp only [folded, Bool.false_eq_true, if_false, Prod.mk.injEq] at same
    cases target
    cases target'
    simp_all

theorem settleGroup_eq_ok
    (settled : settleGroup platform printable rules key members = .ok (.ok entry)) :
    entry.bindingIds = sorted (members.map (·.2.bindingId)) ∧
      (∀ one ∈ members, entry.contentHash = one.2.bound.contentHash) ∧
      ∃ first ∈ members, spelled platform rules first.1 = .ok entry.target := by
  cases members with
  | nil => cases settled
  | cons one rest =>
    unfold settleGroup at settled
    dsimp only at settled
    split at settled
    · cases settled
    case isFalse few =>
      obtain ⟨target, made, ok⟩ := bind_eq_ok.mp settled
      cases ok
      refine ⟨by simp [Function.comp_def], ?_, one, List.mem_cons_self, made⟩
      intro other inside
      dsimp only
      refine eq_of_short (Nat.not_lt.mp few) ?_ ?_
      · rw [mem_fromkeys]
        simp
      · rw [mem_fromkeys, List.map_map]
        exact List.mem_map_of_mem inside

theorem forall₂_toOption {α ε β : Type} {R : α → Except ε β → Prop} {items : List α}
    {out : List (Except ε β)} (both : List.Forall₂ R items out)
    (good : ∀ one ∈ out, ∃ b, one = .ok b) :
    List.Forall₂ (fun a b => R a (.ok b)) items (out.filterMap Except.toOption) := by
  induction both with
  | nil => exact .nil
  | @cons a one items out here later ih =>
    obtain ⟨b, rfl⟩ := good one List.mem_cons_self
    exact .cons here (ih fun other inside => good other (List.mem_cons_of_mem _ inside))

theorem parts_of_plan (made : materialisePlan platform printable manifest rules = .ok plan)
    (clear : plan.problems = []) : ∃ aimed : List Aimed, aimed.map (·.2) = manifest.bindings ∧
      (∀ one ∈ aimed, rules.targetFor one.2 = .ok one.1 ∧ isEscaping one.1 = false) ∧
      List.Forall₂ (fun entry one =>
          settleGroup platform printable rules entry.1 entry.2 = .ok (.ok one))
        (sortedByKeys (fun entry => [entry.1.1, entry.1.2]) (group (fun one : Aimed =>
          platform.collationKey rules.caseInsensitive one.1) aimed)) plan.entries := by
  unfold materialisePlan at made
  obtain ⟨_, made⟩ := then_eq_ok.mp made
  obtain ⟨aimed, targets, made⟩ := bind_eq_ok.mp made
  obtain ⟨settled, groups, ok⟩ := bind_eq_ok.mp made
  cases ok
  have empty := (List.eq_nil_iff_forall_not_mem.mp clear)
  simp only [mem_sortedByKeys] at empty
  obtain ⟨noEscape, noConflict⟩ := List.append_eq_nil_iff.mp
    (List.eq_nil_iff_forall_not_mem.mpr empty)
  have stays : ∀ one ∈ aimed, isEscaping one.1 = false := by
    rw [List.map_eq_nil_iff, List.filter_eq_nil_iff] at noEscape
    intro one inside
    simpa using noEscape one inside
  have good : ∀ one ∈ settled, ∃ entry, one = .ok entry := by
    intro one inside
    have quiet := List.filterMap_eq_nil_iff.mp noConflict one inside
    cases one with
    | ok entry => exact ⟨entry, rfl⟩
    | error problem => cases quiet
  have all : (aimed.filter fun one => !isEscaping one.1) = aimed := by
    rw [List.filter_eq_self]
    intro one inside
    rw [stays one inside]
    rfl
  rw [all] at groups
  refine ⟨aimed, ?_, fun one inside => ⟨?_, stays one inside⟩, ?_⟩
  · have own := @map_of_mapM _ _ _ _ _ _ _ id (·.2) targets fun a b made => by
      obtain ⟨_, _, rfl⟩ := map_eq_ok.mp made
      rfl
    rwa [List.map_id] at own
  · obtain ⟨b, _, made⟩ := (mem_of_mapM targets one).mp inside
    obtain ⟨target, here, rfl⟩ := map_eq_ok.mp made
    exact here
  · exact forall₂_toOption (forall₂_of_mapM (fun _ _ settled => settled) groups) good

theorem names_group {aimed : List Aimed} (own : aimed.map (·.2) = manifest.bindings)
    (inside : members ⊆ aimed)
    (settled : settleGroup platform printable rules key members = .ok (.ok entry))
    {b : ResolvedInputBinding} (bound : b ∈ manifest.bindings) :
    b.bindingId ∈ entry.bindingIds ↔ ∃ one ∈ members, one.2 = b := by
  rw [(settleGroup_eq_ok settled).1, mem_sorted, List.mem_map]
  constructor
  · rintro ⟨one, here, same⟩
    have other : one.2 ∈ manifest.bindings := own ▸ List.mem_map_of_mem (inside here)
    exact ⟨one, here, List.inj_on_of_nodup_map manifest.bindingsDistinct other bound same⟩
  · rintro ⟨one, here, rfl⟩
    exact ⟨one, here, rfl⟩

theorem grouped_of_plan (made : materialisePlan platform printable manifest rules = .ok plan)
    (clear : plan.problems = []) : Grouped platform rules manifest plan.entries := by
  obtain ⟨aimed, own, targets, settled⟩ := parts_of_plan made clear
  generalize listed : sortedByKeys _ _ = groups at settled
  have member : ∀ g : (String × String) × List Aimed, g ∈ groups ↔ g.2 ≠ [] ∧ aimed.filter
      (fun one => platform.collationKey rules.caseInsensitive one.1 = g.1) = g.2 := by
    intro g
    rw [← listed, mem_sortedByKeys]
    exact mem_group
  have within : ∀ g ∈ groups, g.2 ⊆ aimed := by
    intro g inside
    rw [← ((member g).mp inside).2]
    exact fun one here => (List.mem_filter.mp here).1
  have keyed : ∀ g ∈ groups, ∀ one ∈ g.2,
      platform.collationKey rules.caseInsensitive one.1 = g.1 := by
    intro g inside one here
    rw [← ((member g).mp inside).2, List.mem_filter] at here
    exact of_decide_eq_true here.2
  refine ⟨?_, ?_, ?_, ?_, ?_⟩
  · intro b bound
    rw [← own] at bound
    obtain ⟨one, there, rfl⟩ := List.mem_map.mp bound
    have here : one ∈ aimed.filter fun other =>
        platform.collationKey rules.caseInsensitive other.1 =
          platform.collationKey rules.caseInsensitive one.1 :=
      List.mem_filter.mpr ⟨there, decide_eq_true rfl⟩
    have grouped := (member (_, _)).mpr ⟨List.ne_nil_of_mem here, rfl⟩
    obtain ⟨entry, inside, made⟩ := exists_of_forall₂ settled.flip grouped
    exact ⟨entry, inside, (names_group own (within _ grouped) made (own ▸ bound)).mpr
      ⟨one, here, rfl⟩⟩
  · intro entry inside
    obtain ⟨g, grouped, made⟩ := exists_of_forall₂ settled inside
    obtain ⟨one, here⟩ := List.exists_mem_of_ne_nil _ ((member g).mp grouped).1
    have bound : one.2 ∈ manifest.bindings :=
      own ▸ List.mem_map_of_mem (within g grouped here)
    exact ⟨one.2, bound, (names_group own (within g grouped) made bound).mpr ⟨one, here, rfl⟩⟩
  · intro entry inside b bound named
    obtain ⟨g, grouped, made⟩ := exists_of_forall₂ settled inside
    obtain ⟨one, here, rfl⟩ := (names_group own (within g grouped) made bound).mp named
    obtain ⟨_, hashes, first, there, final⟩ := settleGroup_eq_ok made
    refine ⟨hashes one here, ?_⟩
    have aimedOne := (targets one (within g grouped here)).1
    have aimedFirst := (targets first (within g grouped there)).1
    rw [place, aimedOne]
    exact (spelled_congr ((targetFor_namespace aimedOne).trans (targetFor_namespace aimedFirst).symm)
      ((keyed g grouped one here).trans (keyed g grouped first there).symm)).trans final
  · intro entry inside b bound b' bound' named named'
    obtain ⟨g, grouped, made⟩ := exists_of_forall₂ settled inside
    obtain ⟨one, here, rfl⟩ := (names_group own (within g grouped) made bound).mp named
    obtain ⟨other, there, rfl⟩ := (names_group own (within g grouped) made bound').mp named'
    exact ⟨one.1, other.1, (targets one (within g grouped here)).1,
      (targets other (within g grouped there)).1,
      (keyed g grouped one here).trans (keyed g grouped other there).symm⟩
  · have distinct : groups.Pairwise fun g g' => g ∈ groups ∧ g' ∈ groups ∧ g.1 ≠ g'.1 := by
      have nodup := keys_group_nodup
        (fun one : Aimed => platform.collationKey rules.caseInsensitive one.1) aimed
      have differ : groups.Pairwise fun g g' => g.1 ≠ g'.1 := by
        rw [← listed]
        exact ((List.perm_insertionSort _ _).pairwise_iff fun differ => differ.symm).mpr
          (List.pairwise_map.mp nodup)
      exact differ.imp_of_mem fun inside inside' differ => ⟨inside, inside', differ⟩
    refine pairwise_of_forall₂ settled distinct ?_
    rintro g entry g' entry' made made' ⟨grouped, grouped', differ⟩ b bound b' bound' named named'
    obtain ⟨one, here, rfl⟩ := (names_group own (within g grouped) made bound).mp named
    obtain ⟨other, there, rfl⟩ := (names_group own (within g' grouped') made' bound').mp named'
    rintro ⟨target, target', aimedOne, aimedOther, same⟩
    rw [(targets one (within g grouped here)).1] at aimedOne
    rw [(targets other (within g' grouped' there)).1] at aimedOther
    cases aimedOne
    cases aimedOther
    exact differ ((keyed g grouped one here).symm.trans
      (same.trans (keyed g' grouped' other there)))

theorem place_eq_ok :
    place platform rules binding = .ok final ↔
      ∃ target, rules.targetFor binding = .ok target ∧ spelled platform rules target = .ok final :=
  bind_eq_ok

section
variable (made : place platform rules binding = .ok final)
include made

theorem place_namespace :
    final.namespace = rules.namespace := by
  obtain ⟨target, aimed, spelt⟩ := place_eq_ok.mp made
  rw [spelled_namespace spelt, targetFor_namespace aimed]

theorem canonical_of_place
    (beneath : Beneath final.path) : Canonical final.path := by
  obtain ⟨target, aimed, spelt⟩ := place_eq_ok.mp made
  unfold spelled at spelt
  split at spelt
  · exact canonical_of_identity spelt beneath.relative
  · cases spelt
    exact canonical_of_identity aimed beneath.relative

end

theorem key_of_names {target' : ResourceIdentity} (canonical : Canonical target.path)
    (canonical' : Canonical target'.path) (spaces : target.namespace = target'.namespace)
    (same : platform.names rules.caseInsensitive target.path = platform.names
      rules.caseInsensitive target'.path) :
    platform.collationKey rules.caseInsensitive target =
      platform.collationKey rules.caseInsensitive target' := by
  unfold Platform.collationKey
  cases folded : rules.caseInsensitive with
  | true =>
    rw [folded] at same
    rw [if_pos rfl, if_pos rfl, spaces, casefold_of_names canonical canonical' same]
  | false =>
    rw [folded] at same
    rw [if_neg Bool.false_ne_true, if_neg Bool.false_ne_true, spaces,
      eq_of_names canonical canonical' same]

section
variable {β : Type} {caseInsensitive : Bool}

theorem resolvePath_eq_ok {path : String} {names : List (List Char)} :
    resolvePath platform caseInsensitive path = .ok names ↔ strip path ≠ "" ∧ Beneath path ∧
      (∀ name ∈ posixParts path.toList, platform.admits name = true) ∧
      platform.names caseInsensitive path = names := by
  simp only [resolvePath, then_eq_ok, require_eq_ok, Except.ok.injEq]
  constructor
  · rintro ⟨named, ⟨relative, stays⟩, admitted, same⟩
    exact ⟨named, ⟨relative, stays⟩, admitted, same⟩
  · rintro ⟨named, ⟨relative, stays⟩, admitted, same⟩
    exact ⟨named, ⟨relative, stays⟩, admitted, same⟩

variable {entries : List MaterialisationEntry} {blobs : Dict String β}

theorem resolved_of_write {writable : Bool} {files files' : Files β}
    (written : writeEntries platform caseInsensitive writable blobs files entries = .ok files') :
    ∀ entry ∈ entries, ∃ names,
      resolvePath platform caseInsensitive entry.target.path = .ok names := by
  induction entries generalizing files with
  | nil => simp
  | cons entry rest ih =>
    rw [writeEntries] at written
    split at written
    · cases written
    · obtain ⟨next, first, later⟩ := bind_eq_ok.mp written
      obtain ⟨_, first⟩ := then_eq_ok.mp first
      obtain ⟨names, resolved, _⟩ := bind_eq_ok.mp first
      intro one inside
      rcases List.mem_cons.mp inside with rfl | there
      · exact ⟨names, resolved⟩
      · exact ih later one there

def chunks (platform : Platform) (caseInsensitive : Bool) (blobs : Dict String β)
    (entries : List MaterialisationEntry) : List (List (List Char) × β) :=
  entries.filterMap fun entry => (get? blobs entry.target.path).map fun data =>
    (platform.names caseInsensitive entry.target.path, data)

theorem chunks_cons {entry : MaterialisationEntry} {rest : List MaterialisationEntry} {data : β}
    (found : get? blobs entry.target.path = some data) :
    chunks platform caseInsensitive blobs (entry :: rest) =
      (platform.names caseInsensitive entry.target.path, data) ::
        chunks platform caseInsensitive blobs rest := by
  rw [chunks, List.filterMap_cons, found]
  rfl

theorem paths_of_chunks {entries : List MaterialisationEntry} {blobs : Dict String β}
    (found : ∀ entry ∈ entries, ∃ data, get? blobs entry.target.path = some data) :
    (chunks platform caseInsensitive blobs entries).map (·.1) =
      entries.map fun entry => platform.names caseInsensitive entry.target.path := by
  induction entries with
  | nil => rfl
  | cons entry rest ih =>
    obtain ⟨data, here⟩ := found entry List.mem_cons_self
    rw [chunks_cons here, List.map_cons, List.map_cons,
      ih fun one inside => found one (List.mem_cons_of_mem _ inside)]

theorem writeEntries_of_resolved
    (found : ∀ entry ∈ entries, ∃ data, get? blobs entry.target.path = some data)
    (resolved : ∀ entry ∈ entries, resolvePath platform caseInsensitive entry.target.path = .ok
      (platform.names caseInsensitive entry.target.path)) (files : Files β) :
    writeEntries platform caseInsensitive true blobs files entries =
      (FileTree.writeAll files (chunks platform caseInsensitive blobs entries)).mapError
        .inTheWay := by
  induction entries generalizing files with
  | nil => rfl
  | cons entry rest ih =>
    obtain ⟨data, here⟩ := found entry List.mem_cons_self
    have there := resolved entry List.mem_cons_self
    rw [writeEntries, here, chunks_cons here, FileTree.writeAll]
    dsimp only
    rw [writeBytes, there]
    cases first : FileTree.write files (platform.names caseInsensitive entry.target.path) data with
    | error obstacle => simp [bind, Except.bind, require, Except.mapError, first]
    | ok next =>
      have later := ih (fun one inside => found one (List.mem_cons_of_mem _ inside))
        (fun one inside => resolved one (List.mem_cons_of_mem _ inside)) next
      simp only [bind, Except.bind, require, Except.mapError, first, if_true]
      exact later

end

end

end Inputs
