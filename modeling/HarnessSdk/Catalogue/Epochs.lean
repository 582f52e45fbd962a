import HarnessSdk.Catalogue.Pages
import HarnessSdk.Library.Transitions

/-! The epoch over runs: what the commands change they count. -/
namespace Catalogue
open Checks PyDict PyText

inductive Step
  | register (command : Service.Register)
  | transition (command : Service.Transition) (facts : Service.SkillFacts)
  | probe (command : Service.Probe) (nowMs : Nat)
  | prepare (request : Prepare)

def Plane.empty : Plane := ⟨⟨[], [], [], 0⟩, []⟩

def Service.attempt (service : Service) (plane : Plane) : Step → Except Raised Plane
  | .register command =>
    (service.register plane.registry command).map fun done => { plane with registry := done.1 }
  | .transition command facts =>
    (service.transition plane.registry command facts).map fun done =>
      { plane with registry := done.1 }
  | .probe command nowMs =>
    (Service.probe plane.registry command nowMs).map fun done =>
      { plane with registry := done.1 }
  | .prepare request => (plane.prepare request).map (·.1)

def Service.after (service : Service) (plane : Plane) (step : Step) : Plane :=
  match service.attempt plane step with
  | .ok next => next
  | .error _ => plane

abbrev Service.run (service : Service) : Plane → List Step → Plane := Transitions.run service.after

namespace Registry

/-- Two catalogues that a page or a snapshot cannot tell apart, the health lines apart. -/
structure Agrees (one other : Registry) : Prop where
  revisions : other.revisions = one.revisions
  activations : other.activations = one.activations
  categories : ∀ deploymentId revision,
    (other.latestHealth deploymentId revision).map HealthRow.category =
      (one.latestHealth deploymentId revision).map HealthRow.category

theorem Agrees.refl (registry : Registry) : registry.Agrees registry := ⟨rfl, rfl, fun _ _ => rfl⟩

theorem Agrees.trans {one two three : Registry} (first : one.Agrees two) (then_ : two.Agrees three) :
    one.Agrees three :=
  ⟨then_.revisions.trans first.revisions, then_.activations.trans first.activations,
    fun deploymentId revision =>
      (then_.categories deploymentId revision).trans (first.categories deploymentId revision)⟩

def hasLifecycle (registry : Registry) (row : RevisionRow) : Bool :=
  (registry.readActivation row.entryKind row.entryId row.revision).isSome

structure Sound (registry : Registry) : Prop where
  distinct : (keys registry.revisions).Nodup
  keyed : ∀ key row, (key, row) ∈ registry.revisions → row.key = key
  active : ∀ key row, (key, row) ∈ registry.revisions → registry.hasLifecycle row = true

variable {registry : Registry} {kind : EntryKind} {entryId : String} {row : RevisionRow}

theorem Sound.read (sound : registry.Sound) {revision : Nat}
    (found : registry.readRevision kind entryId revision = some row) :
    row.key = (kind, entryId, revision) ∧ registry.hasLifecycle row = true :=
  ⟨sound.keyed _ _ (mem_of_get?_eq_some found), sound.active _ _ (mem_of_get?_eq_some found)⟩

theorem latestRevision_mem (found : registry.latestRevision kind entryId = some row) :
    ∃ key, (key, row) ∈ registry.revisions := by
  have inside := List.mem_of_find?_eq_some found
  obtain ⟨entry, member, rfl⟩ := List.mem_map.mp inside
  exact ⟨entry.1, member⟩

/-- What a command can do to the catalogue: nothing that shows, or something and one epoch more. -/
def Counts (before later : Registry) : Prop :=
  (before.Agrees later ∧ later.epoch = before.epoch) ∨ later.epoch = before.epoch + 1

end Registry

def Keeps {κ β : Type} [DecidableEq κ] (d d' : Dict κ β) : Prop :=
  ∀ k v, get? d k = some v → get? d' k = some v

theorem keeps_set {κ β : Type} [DecidableEq κ] {d : Dict κ β} {k : κ} (fresh : get? d k = none)
    (v : β) : Keeps d (set d k v) := by
  intro j w found
  rw [get?_set_ne _ _ fun same => ?_]
  · exact found
  · rw [← same, fresh] at found
    cases found

namespace Service
variable {service : Service} {registry registry' : Registry}
open Registry

theorem putActivation_present {row : RevisionRow} (present : registry.hasLifecycle row = true)
    (authorityRef : Pin) : (service.putActivation registry row authorityRef).1 = registry := by
  unfold putActivation
  obtain ⟨existing, found⟩ := Option.isSome_iff_exists.mp present
  rw [found]

theorem putActivation_tables (registry : Registry) (row : RevisionRow) (authorityRef : Pin) :
    (service.putActivation registry row authorityRef).1.revisions = registry.revisions ∧
      (service.putActivation registry row authorityRef).1.epoch = registry.epoch := by
  unfold putActivation
  split <;> exact ⟨rfl, rfl⟩

theorem putActivation_hasLifecycle (registry : Registry) (row other : RevisionRow)
    (authorityRef : Pin) :
    (service.putActivation registry row authorityRef).1.hasLifecycle other = true ↔
      other.key = row.key ∨ registry.hasLifecycle other = true := by
  cases found : registry.readActivation row.entryKind row.entryId row.revision with
  | some existing =>
    have present : registry.hasLifecycle row = true := by rw [hasLifecycle, found]; rfl
    rw [putActivation_present present]
    constructor
    · exact Or.inr
    · intro either
      rcases either with same | there
      · rw [RevisionRow.key, RevisionRow.key, Prod.mk.injEq, Prod.mk.injEq] at same
        rw [hasLifecycle, same.1, same.2.1, same.2.2]
        exact present
      · exact there
  | none =>
    unfold putActivation
    rw [found]
    simp only [hasLifecycle, readActivation, get?_set]
    by_cases same : row.key = (other.entryKind, other.entryId, other.revision)
    · have here : other.key = row.key := same.symm
      rw [if_pos same]
      simp [here]
    · have apart : ¬ other.key = row.key := fun equal => same equal.symm
      simp [same, apart]

variable {command : Register} {row : RevisionRow} {activation : ActivationRow}

section
variable (sound : registry.Sound)
include sound

theorem register_cases
    (done : service.register registry command = .ok (registry', row, activation)) :
    registry' = registry ∨
      ∃ authorityRef, registry.readRevision row.entryKind row.entryId row.revision = none ∧
        registry' = changed (service.putActivation
          { registry with revisions := set registry.revisions row.key row } row authorityRef).1 := by
  obtain ⟨_, done⟩ := then_eq_ok.mp done
  obtain ⟨authorityRef, _, done⟩ := bind_eq_ok.mp done
  dsimp only at done
  split at done
  · rename_i latest found
    obtain ⟨found, _⟩ := Option.filter_eq_some_iff.mp found
    obtain ⟨key, inside⟩ := latestRevision_mem found
    have same := @putActivation_present service _ _ (sound.active key _ inside) authorityRef
    cases done
    exact Or.inl same
  · obtain ⟨receipt, _, done⟩ := bind_eq_ok.mp done
    split at done
    · rename_i existing found
      split at done
      · cases done
      · have same := @putActivation_present service _ _ (sound.read found).2 authorityRef
        cases done
        exact Or.inl same
    · rename_i fresh
      split at done
      · cases done
      · split at done
        · cases done
          exact Or.inr ⟨authorityRef, fresh, rfl⟩
        · cases done

theorem register_counts
    (done : service.register registry command = .ok (registry', row, activation)) :
    registry.Counts registry' ∧ registry'.Sound ∧
      Keeps registry.revisions registry'.revisions := by
  rcases register_cases sound done with rfl | ⟨authorityRef, fresh, rfl⟩
  · exact ⟨Or.inl ⟨.refl _, rfl⟩, sound, fun _ _ => id⟩
  · have tables := @putActivation_tables service
      { registry with revisions := set registry.revisions row.key row } row authorityRef
    have lifecycle := fun other => @putActivation_hasLifecycle service
      { registry with revisions := set registry.revisions row.key row } row other authorityRef
    refine ⟨Or.inr (congrArg (· + 1) tables.2), ⟨?_, ?_, ?_⟩, ?_⟩
    · rw [changed, tables.1]
      exact keys_set_nodup _ _ sound.distinct
    · intro key other inside
      rw [changed, tables.1] at inside
      rcases mem_set inside with new | old
      · obtain ⟨rfl, rfl⟩ := Prod.mk.inj new
        rfl
      · exact sound.keyed key other old
    · intro key other inside
      rw [changed, tables.1] at inside
      apply (lifecycle other).mpr
      rcases mem_set inside with new | old
      · obtain ⟨rfl, rfl⟩ := Prod.mk.inj new
        exact Or.inl rfl
      · exact Or.inr (sound.active key other old)
    · rw [changed, tables.1]
      exact keeps_set fresh row

theorem transition_counts {command : Transition} {facts : SkillFacts}
    (done : service.transition registry command facts = .ok (registry', activation)) :
    registry.Counts registry' ∧ registry'.Sound ∧
      Keeps registry.revisions registry'.revisions := by
  obtain ⟨revision, _, done⟩ := bind_eq_ok.mp done
  dsimp only at done
  split at done
  · cases done
  · rename_i current found
    split at done
    · cases done
      exact ⟨Or.inl ⟨.refl _, rfl⟩, sound, fun _ _ => id⟩
    · obtain ⟨_, done⟩ := then_eq_ok.mp done
      obtain ⟨receipt, _, done⟩ := bind_eq_ok.mp done
      obtain ⟨authorityRef, _, done⟩ := bind_eq_ok.mp done
      obtain ⟨moved, stepped, done⟩ := bind_eq_ok.mp done
      iterate 3
        obtain ⟨_, stepped⟩ := then_eq_ok.mp stepped
      cases stepped
      cases done
      refine ⟨Or.inr rfl, ⟨sound.distinct, sound.keyed, ?_⟩, fun _ _ => id⟩
      intro key row inside
      have present := sound.active key row inside
      simp only [hasLifecycle, readActivation, changed, get?_set] at present ⊢
      split
      · rfl
      · exact present

theorem probe_counts {command : Probe} {nowMs : Nat} {row : HealthRow}
    (done : probe registry command nowMs = .ok (registry', row)) :
    registry.Counts registry' ∧ registry'.Sound ∧
      Keeps registry.revisions registry'.revisions := by
  obtain ⟨revision, _, done⟩ := bind_eq_ok.mp done
  obtain ⟨_, _, done⟩ := bind_eq_ok.mp done
  obtain ⟨_, done⟩ := then_eq_ok.mp done
  dsimp only at done
  split at done
  · rename_i same
    cases done
    refine ⟨Or.inl ⟨⟨rfl, rfl, ?_⟩, rfl⟩, ⟨sound.distinct, sound.keyed, sound.active⟩, fun _ _ => id⟩
    intro deploymentId version
    simp only [latestHealth, get?_set]
    split
    · rename_i here
      rw [← here]
      exact same.symm
    · rfl
  · cases done
    exact ⟨Or.inr rfl, ⟨sound.distinct, sound.keyed, sound.active⟩, fun _ _ => id⟩

end

end Service

/-! Snapshots: the id fixes all of the tools but their authority references. -/

variable {registry : Registry} {name : String} {nowMs : Nat} {e : Raised} {tools : List ExposedTool}
  {plane : Plane}

theorem Registry.exposes_name {found : Option ExposedTool}
    (shown : registry.exposes name nowMs = .ok found) :
    ∀ item ∈ found, item.modelName = name ∧ item.tool.entryId = name := by
  unfold exposes at shown
  split at shown
  · cases shown
    simp
  · rename_i row latest
    split at shown
    · cases shown
      simp
    · split at shown
      · obtain ⟨provider, _, shown⟩ := bind_eq_ok.mp shown
        cases shown
        have named := List.find?_some latest
        simp only [Bool.and_eq_true, decide_eq_true_eq] at named
        simpa using named.1.2
      · cases shown
        simp

theorem Registry.resolvePin_code {pin : Pin} (raised : registry.resolvePin pin = .error e) :
    e ≠ .arp "SOURCE_HASH_CONFLICT" := by
  intro conflict
  subst conflict
  unfold resolvePin at raised
  split at raised
  · simp at raised
  · split at raised
    · simp at raised
    · split at raised <;> simp at raised

theorem Registry.exposes_code (raised : registry.exposes name nowMs = .error e) :
    e ≠ .arp "SOURCE_HASH_CONFLICT" := by
  unfold exposes at raised
  split at raised
  · cases raised
  · rename_i row _
    split at raised
    · cases raised
    · split at raised
      · cases resolved : registry.resolvePin row.body.providerRef with
        | ok provider =>
          rw [resolved] at raised
          cases raised
        | error cause =>
          rw [resolved] at raised
          cases raised
          exact resolvePin_code resolved
      · cases raised

theorem mapM_code {α β : Type} {f : α → Except Raised β} {code : Raised}
    (never : ∀ a e, f a = .error e → e ≠ code) (items : List α) (raised : items.mapM f = .error e) :
    e ≠ code := by
  induction items with
  | nil => cases raised
  | cons a rest ih =>
    rw [List.mapM_cons, bind_eq_error] at raised
    rcases raised with first | ⟨_, _, raised⟩
    · exact never a _ first
    · rcases bind_eq_error.mp raised with later | ⟨_, _, done⟩
      · exact ih later
      · cases done

theorem renamed_of_distinct (apart : (tools.map ExposedTool.modelName).Nodup) :
    Registry.renamed tools = tools := by
  have same : ∀ item ∈ tools,
      (if (tools.filter (·.modelName = item.modelName)).length = 1 then item
      else { item with
        modelName := item.modelName ++ "-" ++
          String.ofList (item.tool.contentHash.toList.take 8) }) = item := by
    intro item inside
    have once : (tools.map ExposedTool.modelName).count item.modelName = 1 :=
      List.count_eq_one_of_mem apart (List.mem_map_of_mem inside)
    rw [List.count, List.countP_map] at once
    rw [if_pos]
    rw [← List.countP_eq_length_filter, ← once]
    apply List.countP_congr
    simp
  rw [Registry.renamed, List.map_congr_left same, List.map_id']

theorem Registry.exposed_name {requested : List String}
    (shown : registry.exposed requested nowMs = .ok tools) :
    ∀ item ∈ tools, item.modelName = item.tool.entryId := by
  obtain ⟨found, each, shown⟩ := bind_eq_ok.mp shown
  have aligned := forall₂_of_mapM (f := fun name => registry.exposes name nowMs)
    (fun name out ok => exposes_name ok) each
  have names : (requested.dedup.insertionSort (· ≤ ·)).Pairwise (· ≠ ·) :=
    (List.perm_insertionSort _ _).nodup_iff.mpr (List.nodup_dedup requested)
  have apart := pairwise_of_forall₂ (Q := fun one other => ∀ a ∈ one, ∀ b ∈ other,
    a.modelName ≠ b.modelName) aligned names (by
      intro a b a' b' here there different item inside item' inside' same
      exact different ((here item inside).1.symm.trans (same.trans (there item' inside').1)))
  have distinct : ((found.filterMap id).map ExposedTool.modelName).Nodup := by
    rw [List.Nodup, List.pairwise_map, List.pairwise_filterMap]
    exact apart.imp fun different a here b there => different a here b there
  cases shown
  rw [renamed_of_distinct distinct]
  intro item inside
  obtain ⟨out, member, same⟩ := List.mem_filterMap.mp inside
  obtain ⟨name, _, named⟩ := exists_of_forall₂ aligned member
  have both := named item (by simpa using same)
  exact both.1.trans both.2.symm

def entryOf (authorityRefs : List Pin) (witness : Pin × Pin × Pin × ActivationRow) : ToolEntry :=
  ⟨witness.1.id, witness.1, witness.2.1, witness.2.2.1, authorityRefs⟩

variable {request : Prepare}

theorem Plane.snapshot_tools
    (shown : plane.registry.exposed request.requested request.nowMs = .ok tools) :
    (plane.snapshot request tools).tools =
      (plane.snapshot request tools).snapshotId.catalogue.map (entryOf request.authorityRefs) := by
  rw [snapshot, List.map_map]
  apply List.map_congr_left
  intro item inside
  have named := Registry.exposed_name shown item inside
  simp [ExposedTool.entry, ExposedTool.witness, entryOf, RevisionRow.pin, named]

structure Plane.Sound (plane : Plane) : Prop where
  registry : plane.registry.Sound
  recorded : ∀ id snapshot, get? plane.exposures id = some snapshot →
    snapshot.snapshotId = id ∧
      ∃ authorityRefs, snapshot.tools = id.catalogue.map (entryOf authorityRefs)

theorem Plane.prepare_keeps {plane' : Plane} {value : ToolSnapshot} (sound : plane.Sound)
    (done : plane.prepare request = .ok (plane', value)) :
    plane'.registry = plane.registry ∧ plane'.Sound ∧ Keeps plane.exposures plane'.exposures := by
  obtain ⟨tools, shown, done⟩ := bind_eq_ok.mp done
  obtain ⟨_, done⟩ := then_eq_ok.mp done
  split at done
  · next fresh =>
    cases done
    exact ⟨rfl, ⟨sound.registry, every_set sound.recorded ⟨rfl, _, snapshot_tools shown⟩⟩,
      keeps_set fresh _⟩
  · split at done
    · cases done
      exact ⟨rfl, sound, fun _ _ => id⟩
    · cases done

theorem Plane.prepare_conflict (sound : plane.Sound) (request : Prepare) :
    plane.prepare request = .error (.arp "SOURCE_HASH_CONFLICT") ↔
      ∃ tools, plane.registry.exposed request.requested request.nowMs = .ok tools ∧
        (plane.snapshot request tools).Valid ∧
        ∃ recorded,
          get? plane.exposures (plane.snapshot request tools).snapshotId = some recorded ∧
          ∃ tool ∈ recorded.tools, tool.effectiveAuthorityRefs ≠ request.authorityRefs := by
  cases shown : plane.registry.exposed request.requested request.nowMs with
  | error e =>
    have other : e ≠ .arp "SOURCE_HASH_CONFLICT" := by
      unfold Registry.exposed at shown
      cases each : (request.requested.dedup.insertionSort (· ≤ ·)).mapM fun name =>
          plane.registry.exposes name request.nowMs with
      | error cause =>
        rw [each] at shown
        cases shown
        exact mapM_code (fun name e raised => Registry.exposes_code raised) _ each
      | ok found =>
        rw [each] at shown
        cases shown
    unfold prepare
    rw [shown]
    simpa [bind, Except.bind] using other
  | ok tools =>
    have mine := snapshot_tools shown
    unfold prepare
    rw [shown]
    dsimp only [bind, Except.bind]
    by_cases valid : (plane.snapshot request tools).Valid
    · rw [require, if_pos valid]
      dsimp only
      cases found : get? plane.exposures (plane.snapshot request tools).snapshotId with
      | none => simp [found]
      | some recorded =>
        dsimp only
        obtain ⟨same, refs, theirs⟩ := sound.recorded _ _ found
        have equal : recorded = plane.snapshot request tools ↔
            ∀ tool ∈ recorded.tools, tool.effectiveAuthorityRefs = request.authorityRefs := by
          constructor
          · intro one tool inside
            rw [one, mine] at inside
            obtain ⟨witness, _, rfl⟩ := List.mem_map.mp inside
            rfl
          · intro all
            have tools_eq : recorded.tools = (plane.snapshot request tools).tools := by
              rw [mine, theirs]
              apply List.map_congr_left
              intro witness inside
              have here := all (entryOf refs witness) (by
                rw [theirs]
                exact List.mem_map_of_mem inside)
              rw [show refs = request.authorityRefs from here]
            cases recorded
            rw [ToolSnapshot.mk.injEq]
            exact ⟨same, tools_eq⟩
        by_cases agreed : recorded = plane.snapshot request tools
        · have none_other := equal.mp agreed
          rw [if_pos agreed]
          constructor
          · intro impossible
            cases impossible
          · intro conflict
            obtain ⟨tools', one, _, recorded', found', tool, inside, different⟩ := conflict
            cases one
            rw [found] at found'
            cases found'
            exact absurd (none_other tool inside) different
        · rw [if_neg agreed]
          refine ⟨fun _ => ⟨tools, rfl, valid, recorded, found, ?_⟩, fun _ => rfl⟩
          by_contra all
          apply agreed
          apply equal.mpr
          intro tool inside
          by_contra different
          exact all ⟨tool, inside, different⟩
    · rw [require, if_neg valid]
      dsimp only
      constructor
      · intro impossible
        simp at impossible
      · intro conflict
        obtain ⟨tools', one, valid', _⟩ := conflict
        cases one
        exact absurd valid' valid

/-! Runs. -/

structure Plane.Grows (plane plane' : Plane) : Prop where
  counts : plane.registry.Counts plane'.registry
  sound : plane'.Sound
  revisions : Keeps plane.registry.revisions plane'.registry.revisions
  exposures : Keeps plane.exposures plane'.exposures

theorem Service.attempt_counts {service : Service} {plane' : Plane} {step : Step}
    (sound : plane.Sound) (done : service.attempt plane step = .ok plane') :
    plane.Grows plane' := by
  cases step with
  | register command =>
    obtain ⟨⟨registry', row, activation⟩, made, rfl⟩ := map_eq_ok.mp done
    obtain ⟨counts, registry, kept⟩ := register_counts sound.registry made
    exact ⟨counts, ⟨registry, sound.recorded⟩, kept, fun _ _ => id⟩
  | transition command facts =>
    obtain ⟨⟨registry', activation⟩, made, rfl⟩ := map_eq_ok.mp done
    obtain ⟨counts, registry, kept⟩ := transition_counts sound.registry made
    exact ⟨counts, ⟨registry, sound.recorded⟩, kept, fun _ _ => id⟩
  | probe command nowMs =>
    obtain ⟨⟨registry', row⟩, made, rfl⟩ := map_eq_ok.mp done
    obtain ⟨counts, registry, kept⟩ := probe_counts sound.registry made
    exact ⟨counts, ⟨registry, sound.recorded⟩, kept, fun _ _ => id⟩
  | prepare request =>
    obtain ⟨⟨plane'', value⟩, made, rfl⟩ := map_eq_ok.mp done
    obtain ⟨same, sound', kept⟩ := Plane.prepare_keeps sound made
    refine ⟨?_, sound', ?_, kept⟩ <;> rw [same]
    · exact Or.inl ⟨.refl _, rfl⟩
    · exact fun _ _ => id

theorem Service.after_counts {service : Service} {plane : Plane} (sound : plane.Sound)
    (step : Step) : plane.Grows (service.after plane step) := by
  unfold after
  cases done : service.attempt plane step with
  | ok next => exact attempt_counts sound done
  | error e => exact ⟨Or.inl ⟨.refl _, rfl⟩, sound, fun _ _ => id, fun _ _ => id⟩

theorem Plane.empty_sound : Plane.empty.Sound where
  registry := ⟨List.nodup_nil, fun _ _ none => (nomatch none), fun _ _ none => (nomatch none)⟩
  recorded := fun _ _ found => nomatch found

theorem Service.run_sound (service : Service) {plane : Plane} (sound : plane.Sound)
    (steps : List Step) : (service.run plane steps).Sound :=
  Transitions.run_keeps Plane.Sound (fun _ step sound => (after_counts sound step).sound) sound steps

theorem Service.run_counts (service : Service) (sound : plane.Sound) (steps : List Step) :
    plane.registry.epoch ≤ (service.run plane steps).registry.epoch ∧
      ((service.run plane steps).registry.epoch = plane.registry.epoch →
        plane.registry.Agrees (service.run plane steps).registry) := by
  induction steps generalizing plane with
  | nil => exact ⟨le_refl _, fun _ => .refl _⟩
  | cons step rest ih =>
    obtain ⟨counted, sound', _⟩ := @after_counts service _ sound step
    obtain ⟨later, still⟩ := ih sound'
    change plane.registry.epoch ≤
        (service.run (service.after plane step) rest).registry.epoch ∧
      ((service.run (service.after plane step) rest).registry.epoch = plane.registry.epoch →
        plane.registry.Agrees (service.run (service.after plane step) rest).registry)
    rcases counted with ⟨agrees, same⟩ | more
    · constructor
      · omega
      · intro equal
        exact agrees.trans (still (equal.trans same.symm))
    · constructor
      · omega
      · intro equal
        omega

/-- In every run a recorded revision or snapshot stands under its own id, and whatever follows
neither changes nor loses it. -/
theorem Service.records_stay (service : Service) (steps more : List Step) :
    let plane := service.run .empty steps
    let later := service.run .empty (steps ++ more)
    plane.Sound ∧ Keeps plane.registry.revisions later.registry.revisions ∧
      Keeps plane.exposures later.exposures := by
  intro plane later
  have sound : plane.Sound := run_sound service Plane.empty_sound steps
  have joined : later = service.run plane more := Transitions.run_append ..
  rw [joined]
  refine ⟨sound, (Transitions.run_keeps (fun s : Plane => s.Sound ∧
    Keeps plane.registry.revisions s.registry.revisions ∧ Keeps plane.exposures s.exposures)
    (fun s step ⟨sound, revisions, exposures⟩ => ?_)
    ⟨sound, fun _ _ => id, fun _ _ => id⟩ more).2⟩
  have grows : s.Grows (service.after s step) := after_counts sound step
  exact ⟨grows.sound, fun k v found => grows.revisions k v (revisions k v found),
    fun k v found => grows.exposures k v (exposures k v found)⟩

end Catalogue
