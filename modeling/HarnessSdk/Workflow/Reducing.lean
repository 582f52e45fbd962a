import HarnessSdk.Workflow.Merging

/-! Reducing a merged patch into the state: the second time changes nothing. -/
namespace Workflow
open PyDict PyText Checks
namespace CompiledWorkflow

/-! What a merged value looks like. -/

def idText (idKey : String) (item : Json) : Option String :=
  (stableItem idKey item).map fun found => canonicalJson found.1

structure Identified (idKey : String) (items : List Json) : Prop where
  each : ∀ item ∈ items, (stableItem idKey item).isSome
  distinct : (items.map (idText idKey)).Nodup

def Reduced (spec : ChannelSpec) (value : Json) : Prop :=
  match reducerOf spec with
  | .singleWriter => True
  | .dictDisjoint => ∃ fields, value = .obj fields ∧ (keys fields).Nodup
  | .stableList => ∃ items, value = .arr items ∧ Identified spec.itemIdKey items

variable {idKey channel : String} {entry : String × Json} {items : List Json} {spec : ChannelSpec}
  {value : Json} {fields : List (String × Json)} {out : Dict String Json}

theorem idText_of_entry {item : Json} (found : itemEntry idKey item = some entry) :
    (stableItem idKey item).isSome ∧ idText idKey item = some entry.1 ∧ entry.2 = item := by
  unfold itemEntry at found
  obtain ⟨pair, stable, found⟩ := Option.bind_eq_some_iff.mp found
  obtain ⟨_, _, rfl⟩ := Option.map_eq_some_iff.mp found
  exact ⟨by rw [stable]; rfl, by rw [idText, stable]; rfl, rfl⟩

theorem entry_of_listed (inside : entry ∈ ofEntries (items.filterMap (itemEntry idKey))) :
    (stableItem idKey entry.2).isSome ∧ idText idKey entry.2 = some entry.1 := by
  have found := get?_eq_some_of_mem (keys_ofEntries_nodup _) inside
  rcases get?_update_cases found with written | impossible
  · obtain ⟨item, _, same⟩ := List.mem_filterMap.mp written
    obtain ⟨stable, text, rfl⟩ := idText_of_entry same
    exact ⟨stable, text⟩
  · cases impossible

theorem identified_of_entries {entries : Dict String Json}
    (each : ∀ entry ∈ entries, (stableItem idKey entry.2).isSome ∧ idText idKey entry.2 = some
      entry.1) (distinct : (keys entries).Nodup) : Identified idKey (entries.map Prod.snd) := by
  constructor
  · intro item inside
    obtain ⟨entry, held, rfl⟩ := List.mem_map.mp inside
    exact (each entry held).1
  · have ids : (entries.map Prod.snd).map (idText idKey) = (keys entries).map some := by
      rw [keys, List.map_map, List.map_map]
      exact List.map_congr_left fun entry held => (each entry held).2
    rw [ids]
    exact distinct.map fun _ _ same => Option.some.inj same

theorem mergeChannel_reduced {writes : Writes}
    (done : mergeChannel channel spec writes = .ok value) : Reduced spec value := by
  unfold mergeChannel at done
  unfold Reduced
  cases kind : reducerOf spec with
  | singleWriter => trivial
  | dictDisjoint =>
    rw [kind] at done
    obtain ⟨merged, first, done⟩ := bind_eq_ok.mp done
    cases done
    exact ⟨merged, rfl, mergeDisjoint_nodup first List.nodup_nil⟩
  | stableList =>
    rw [kind] at done
    obtain ⟨merged, first, done⟩ := bind_eq_ok.mp done
    cases done
    obtain ⟨_, _, _, rfl⟩ := mergeStable_eq_ok.mp first
    refine ⟨_, rfl, identified_of_entries ?_ ?_⟩
    · intro entry inside
      exact entry_of_listed ((mem_sortedBy ..).mp inside)
    · exact ((perm_sortedBy Prod.fst _).map Prod.fst).nodup_iff.mpr (keys_ofEntries_nodup _)

/-! Objects. -/

variable {merged : Dict String Json} {state' : State}

theorem reduceFields_held (held : ∀ field ∈ fields, get? merged field.1 = some field.2) :
    reduceFields channel fields merged = .ok merged := by
  induction fields with
  | nil => rfl
  | cons field rest ih =>
    obtain ⟨key, item⟩ := field
    have here := held _ List.mem_cons_self
    rw [reduceFields, here]
    simp only [Json.sameText, BEq.rfl, if_true]
    rw [set_same here]
    exact ih fun field inside => held field (List.mem_cons_of_mem _ inside)

theorem reduceFields_cons {key : String} {item : Json} {rest : List (String × Json)}
    (done : reduceFields channel ((key, item) :: rest) merged = .ok out) :
    reduceFields channel rest (set merged key item) = .ok out := by
  rw [reduceFields] at done
  split at done
  · split at done
    · exact done
    · cases done
  · exact done

theorem reduceFields_spec (done : reduceFields channel fields merged = .ok out)
    (distinct : (keys fields).Nodup) :
    (∀ field ∈ fields, get? out field.1 = some field.2) ∧
      ∀ key ∉ keys fields, get? out key = get? merged key := by
  induction fields generalizing merged with
  | nil =>
    cases done
    exact ⟨nofun, fun _ _ => rfl⟩
  | cons field rest ih =>
    obtain ⟨key, item⟩ := field
    simp only [keys, List.map_cons, List.nodup_cons] at distinct
    obtain ⟨written, kept⟩ := ih (reduceFields_cons done) distinct.2
    constructor
    · refine List.forall_mem_cons.mpr ⟨?_, written⟩
      rw [kept key distinct.1, get?_set_self]
    · intro other absent
      simp only [keys, List.map_cons, List.mem_cons, not_or] at absent
      rw [kept other absent.2, get?_set_ne _ _ (Ne.symm absent.1)]

/-! Lists. -/

/-- An item that stands in the list already, under its id and with its text. -/
def Listed (idKey : String) (positions : Dict String Json) (item : Json) : Prop :=
  ∃ id old, stableItem idKey item = some (id, item) ∧
    get? positions (canonicalJson id) = some old ∧ canonicalJson old = canonicalJson item

variable {positions : Dict String Json}

theorem reduceItems_listed {result : List Json}
    (listed : ∀ item ∈ items, Listed idKey positions item) :
    reduceItems channel idKey items positions result = .ok result := by
  induction items with
  | nil => rfl
  | cons item rest ih =>
    obtain ⟨id, old, stable, found, text⟩ := listed _ List.mem_cons_self
    rw [reduceItems, stable]
    dsimp only
    rw [found]
    simp only [Json.sameText, beq_iff_eq, text, if_true]
    exact ih fun item inside => listed item (List.mem_cons_of_mem _ inside)

theorem itemPositions_append {first later : List Json} :
    itemPositions channel idKey (first ++ later) positions =
      (itemPositions channel idKey first positions).bind
        (itemPositions channel idKey later) := by
  induction first generalizing positions with
  | nil => rfl
  | cons item rest ih =>
    rw [List.cons_append, itemPositions, itemPositions]
    cases stableItem idKey item with
    | none => rfl
    | some found => exact ih

theorem itemPositions_spec {channel idKey : String} {items : List Json}
    (each : ∀ item ∈ items, (stableItem idKey item).isSome) (positions : Dict String Json) :
    ∃ out, itemPositions channel idKey items positions = .ok out ∧
      ∀ k, k ∈ keys out ↔ k ∈ keys positions ∨ some k ∈ items.map (idText idKey) := by
  induction items generalizing positions with
  | nil => exact ⟨positions, rfl, by simp⟩
  | cons item rest ih =>
    obtain ⟨found, stable⟩ := Option.isSome_iff_exists.mp (each _ List.mem_cons_self)
    obtain ⟨id, item'⟩ := found
    obtain rfl := stableItem_same stable
    obtain ⟨out, done, known⟩ := ih (fun item inside => each item (List.mem_cons_of_mem _ inside))
      (set positions (canonicalJson id) item')
    refine ⟨out, ?_, ?_⟩
    · rw [itemPositions, stable]
      exact done
    · intro k
      have text : idText idKey item' = some (canonicalJson id) := by rw [idText, stable]; rfl
      rw [known, mem_keys_set, List.map_cons, List.mem_cons, text, Option.some.injEq]
      tauto

section
variable (done : itemPositions channel idKey items positions = .ok out)
include done

theorem itemPositions_each :
    ∀ item ∈ items, (stableItem idKey item).isSome := by
  induction items generalizing positions with
  | nil => exact nofun
  | cons item rest ih =>
    rw [itemPositions] at done
    cases stable : stableItem idKey item with
    | none =>
      rw [stable] at done
      cases done
    | some found =>
      rw [stable] at done
      refine List.forall_mem_cons.mpr ⟨?_, ih done⟩
      rw [stable]
      rfl

theorem itemPositions_own
    (identified : Identified idKey items) :
    (∀ item ∈ items, Listed idKey out item) ∧
      ∀ k, some k ∉ items.map (idText idKey) → get? out k = get? positions k := by
  induction items generalizing positions with
  | nil =>
    cases done
    exact ⟨nofun, fun _ _ => rfl⟩
  | cons item rest ih =>
    obtain ⟨found, stable⟩ := Option.isSome_iff_exists.mp (identified.each _ List.mem_cons_self)
    obtain ⟨id, item'⟩ := found
    obtain rfl := stableItem_same stable
    have text : idText idKey item' = some (canonicalJson id) := by rw [idText, stable]; rfl
    have distinct := identified.distinct
    rw [List.map_cons, List.nodup_cons, text] at distinct
    rw [itemPositions, stable] at done
    obtain ⟨own, kept⟩ := ih done
      ⟨fun item inside => identified.each item (List.mem_cons_of_mem _ inside), distinct.2⟩
    constructor
    · refine List.forall_mem_cons.mpr ⟨⟨id, item', stable, ?_, rfl⟩, own⟩
      rw [kept _ distinct.1, get?_set_self]
    · intro k absent
      rw [List.map_cons, List.mem_cons, not_or, text] at absent
      rw [kept k absent.2, get?_set_ne _ _ fun same => absent.1 (congrArg some same.symm)]

end

theorem reduceItems_spec {result out : List Json}
    (done : reduceItems channel idKey items positions result = .ok out) :
    ∃ new final, out = result ++ new ∧ itemPositions channel idKey new positions = .ok final ∧
      (∀ item ∈ items, Listed idKey final item) ∧ (new.map (idText idKey)).Nodup ∧
      (∀ k ∈ keys positions, some k ∉ new.map (idText idKey) ∧
        get? final k = get? positions k) := by
  induction items generalizing positions result with
  | nil =>
    cases done
    exact ⟨[], positions, by simp, rfl, nofun, List.nodup_nil, fun k _ => ⟨nofun, rfl⟩⟩
  | cons item rest ih =>
    rw [reduceItems] at done
    cases stable : stableItem idKey item with
    | none =>
      rw [stable] at done
      cases done
    | some found =>
      obtain ⟨id, item'⟩ := found
      obtain rfl := stableItem_same stable
      have text : idText idKey item' = some (canonicalJson id) := by rw [idText, stable]; rfl
      rw [stable] at done
      dsimp only at done
      cases held : get? positions (canonicalJson id) with
      | some old =>
        rw [held] at done
        dsimp only at done
        split at done
        · rename_i same
          obtain ⟨new, final, appended, placed, listed, distinct, kept⟩ := ih done
          refine ⟨new, final, appended, placed, ?_, distinct, kept⟩
          have known : canonicalJson id ∈ keys positions :=
            (get?_isSome_iff _ _).mp (by rw [held]; rfl)
          refine List.forall_mem_cons.mpr ⟨⟨id, old, stable, ?_, by simpa [Json.sameText] using same⟩,
            listed⟩
          rw [(kept _ known).2, held]
        · cases done
      | none =>
        rw [held] at done
        obtain ⟨new, final, appended, placed, listed, distinct, kept⟩ := ih done
        have own := kept (canonicalJson id) ((mem_keys_set ..).mpr (Or.inl rfl))
        refine ⟨item' :: new, final, ?_, ?_, ?_, ?_, ?_⟩
        · rw [appended, List.append_assoc]
          rfl
        · rw [itemPositions, stable]
          exact placed
        · refine List.forall_mem_cons.mpr ⟨⟨id, item', stable, ?_, rfl⟩, listed⟩
          rw [own.2, get?_set_self]
        · rw [List.map_cons, text]
          exact List.nodup_cons.mpr ⟨own.1, distinct⟩
        · intro k known
          have other : canonicalJson id ≠ k := by
            intro same
            subst same
            exact (get?_eq_none_iff _ _).mp held known
          obtain ⟨absent, same⟩ := kept k ((mem_keys_set ..).mpr (Or.inr known))
          rw [List.map_cons, List.mem_cons, text, not_or, same, get?_set_ne _ _ other]
          exact ⟨⟨fun equal => other (Option.some.inj equal).symm, absent⟩, rfl⟩

/-! One channel. -/

variable {result : Json}

theorem reduceChannel_list (kind : reducerOf spec = .stableList)
    (done : reduceChannel channel spec (some (.arr items)) value = .ok result) :
    ∃ writes new positions final, value = .arr writes ∧ result = .arr (items ++ new) ∧
      itemPositions channel spec.itemIdKey items [] = .ok positions ∧
      itemPositions channel spec.itemIdKey new positions = .ok final ∧
      (∀ item ∈ writes, Listed spec.itemIdKey final item) ∧
      (new.map (idText spec.itemIdKey)).Nodup ∧
      ∀ k ∈ keys positions, some k ∉ new.map (idText spec.itemIdKey) := by
  unfold reduceChannel at done
  rw [kind] at done
  cases value with
  | arr writes =>
    obtain ⟨positions, placed, done⟩ := bind_eq_ok.mp done
    obtain ⟨out, reduced, done⟩ := bind_eq_ok.mp done
    cases done
    obtain ⟨new, final, rfl, appended, listed, distinct, kept⟩ := reduceItems_spec reduced
    exact ⟨writes, new, positions, final, rfl, rfl, placed, appended, listed, distinct,
      fun k known => (kept k known).1⟩
  | _ => cases done

theorem reduceChannel_again {old : Option Json} (reduced : Reduced spec value)
    (done : reduceChannel channel spec old value = .ok result) :
    reduceChannel channel spec (some result) value = .ok result := by
  unfold Reduced at reduced
  cases kind : reducerOf spec with
  | singleWriter =>
    unfold reduceChannel at done ⊢
    rw [kind] at done ⊢
    exact done
  | dictDisjoint =>
    rw [kind] at reduced
    obtain ⟨writes, rfl, distinct⟩ := reduced
    have settled : ∀ fields, (∀ field ∈ writes, get? fields field.1 = some field.2) →
        reduceChannel channel spec (some (.obj fields)) (.obj writes) = .ok (.obj fields) := by
      intro fields held
      unfold reduceChannel
      rw [kind]
      dsimp only
      rw [reduceFields_held held]
      rfl
    unfold reduceChannel at done
    rw [kind] at done
    match old, done with
    | none, done =>
      cases done
      apply settled
      intro field inside
      exact get?_eq_some_of_mem distinct inside
    | some (.obj fields), done =>
      obtain ⟨merged, written, done⟩ := bind_eq_ok.mp done
      cases done
      exact settled merged (reduceFields_spec written distinct).1
  | stableList =>
    rw [kind] at reduced
    obtain ⟨writes, rfl, identified⟩ := reduced
    have settled : ∀ items positions,
        itemPositions channel spec.itemIdKey items [] = .ok positions →
        (∀ item ∈ writes, Listed spec.itemIdKey positions item) →
        reduceChannel channel spec (some (.arr items)) (.arr writes) = .ok (.arr items) := by
      intro items positions placed listed
      unfold reduceChannel
      rw [kind]
      dsimp only
      rw [placed]
      dsimp only [bind, Except.bind]
      rw [reduceItems_listed listed]
      rfl
    match old with
    | none =>
      unfold reduceChannel at done
      rw [kind] at done
      cases done
      obtain ⟨positions, placed, _⟩ := @itemPositions_spec channel _ _ identified.each []
      exact settled writes positions placed (itemPositions_own placed identified).1
    | some (.arr items) =>
      obtain ⟨_, new, positions, final, same, rfl, placed, appended, listed, _⟩ :=
        reduceChannel_list kind done
      cases same
      apply settled (items ++ new) final _ listed
      rw [itemPositions_append, placed]
      exact appended
    | some .null | some (.bool _) | some (.int _) | some (.float _) | some (.str _)
    | some (.obj _) =>
      unfold reduceChannel at done
      rw [kind] at done
      cases done

theorem reduceChannel_distinct (kind : reducerOf spec = .stableList)
    (done : reduceChannel channel spec (some (.arr items)) value = .ok result)
    (distinct : (items.map (idText spec.itemIdKey)).Nodup) :
    ∃ new, result = .arr (items ++ new) ∧
      ((items ++ new).map (idText spec.itemIdKey)).Nodup := by
  obtain ⟨_, new, positions, _, _, rfl, placed, _, _, fresh, absent⟩ :=
    reduceChannel_list kind done
  refine ⟨new, rfl, ?_⟩
  obtain ⟨positions', placed', known⟩ :=
    @itemPositions_spec channel _ _ (itemPositions_each placed) []
  obtain rfl := Except.ok.inj (placed.symm.trans placed')
  rw [List.map_append, List.nodup_append]
  refine ⟨distinct, fresh, ?_⟩
  intro id old id' inside same
  subst same
  obtain ⟨item, held, rfl⟩ := List.mem_map.mp old
  obtain ⟨found, stable⟩ := Option.isSome_iff_exists.mp (itemPositions_each placed item held)
  have text : idText spec.itemIdKey item = some (canonicalJson found.1) := by rw [idText, stable]; rfl
  rw [text] at old inside
  exact absent _ ((known _).mpr (Or.inr old)) inside

/-! The state. -/

variable (w : CompiledWorkflow)

/-- Every value of the patch is one that its channel's reducer made. -/
def Merged (patch : StatePatch) : Prop :=
  (keys patch).Nodup ∧ ∀ entry ∈ patch, ∀ spec,
    get? w.definition.channels entry.1 = some spec → Reduced spec entry.2

variable {patch : StatePatch}

theorem mergePatches_merged {writes : List (String × StatePatch)}
    (done : w.mergePatches writes = .ok patch) : w.Merged patch := by
  obtain ⟨_, distinct, found⟩ := w.mergePatches_spec done
  refine ⟨distinct, ?_⟩
  intro entry inside spec known
  have held := get?_eq_some_of_mem distinct inside
  rcases found entry.1 with absent | present
  · rw [held] at absent
    cases absent.2
  · obtain ⟨_, value, here, merged⟩ := present
    obtain rfl := Option.some.inj (held.symm.trans here)
    unfold mergedChannel at merged
    rw [known] at merged
    exact mergeChannel_reduced merged

variable {state : State}

theorem reduceState_spec (distinct : (keys patch).Nodup)
    (done : w.reduceState patch state = .ok state') :
    (∀ channel ∉ keys patch, get? state' channel = get? state channel) ∧
      ∀ entry ∈ patch, ∃ spec result, get? w.definition.channels entry.1 = some spec ∧
        reduceChannel entry.1 spec (get? state entry.1) entry.2 = .ok result ∧
        get? state' entry.1 = some result := by
  induction patch generalizing state with
  | nil =>
    cases done
    exact ⟨fun _ _ => rfl, nofun⟩
  | cons entry rest ih =>
    obtain ⟨channel, value⟩ := entry
    simp only [keys, List.map_cons, List.nodup_cons] at distinct
    rw [reduceState] at done
    cases known : get? w.definition.channels channel with
    | none =>
      rw [known] at done
      cases done
    | some spec =>
      rw [known] at done
      obtain ⟨result, here, done⟩ := bind_eq_ok.mp done
      obtain ⟨kept, later⟩ := ih distinct.2 done
      constructor
      · intro other absent
        simp only [keys, List.map_cons, List.mem_cons, not_or] at absent
        rw [kept other absent.2, get?_set_ne _ _ (Ne.symm absent.1)]
      · refine List.forall_mem_cons.mpr ⟨⟨spec, result, known, here, ?_⟩, ?_⟩
        · rw [kept channel distinct.1, get?_set_self]
        · intro entry inside
          obtain ⟨spec', result', known', there, found⟩ := later entry inside
          have other : channel ≠ entry.1 := by
            intro same
            subst same
            exact distinct.1 (List.mem_map_of_mem inside)
          rw [get?_set_ne _ _ other] at there
          exact ⟨spec', result', known', there, found⟩

theorem reduceState_settled
    (settled : ∀ entry ∈ patch, ∃ spec result, get? w.definition.channels entry.1 = some spec ∧
      get? state entry.1 = some result ∧ reduceChannel entry.1 spec (some result) entry.2 = .ok
      result) : w.reduceState patch state = .ok state := by
  induction patch with
  | nil => rfl
  | cons entry rest ih =>
    obtain ⟨channel, value⟩ := entry
    obtain ⟨spec, result, known, held, same⟩ := settled _ List.mem_cons_self
    dsimp only at known held same
    rw [reduceState, known]
    dsimp only
    rw [held, same]
    dsimp only [bind, Except.bind]
    rw [set_same held]
    exact ih fun entry inside => settled entry (List.mem_cons_of_mem _ inside)

theorem reduceState_again (merged : w.Merged patch)
    (done : w.reduceState patch state = .ok state') : w.reduceState patch state' = .ok state' := by
  apply w.reduceState_settled
  intro entry inside
  obtain ⟨spec, result, known, reduced, held⟩ :=
    (w.reduceState_spec merged.1 done).2 entry inside
  exact ⟨spec, result, known, held, reduceChannel_again (merged.2 entry inside spec known) reduced⟩

/-- Parallel writers may be merged in any order, and the merged patch may be reduced again. -/
theorem patches_merge_and_replay :
    (∀ writes writes' : List (String × StatePatch), writes.Perm writes' →
      match w.mergePatches writes, w.mergePatches writes' with
      | .ok patch, .ok patch' => SamePatch patch patch'
      | .error _, .error _ => True
      | _, _ => False) ∧
    ∀ (writes : List (String × StatePatch)) (patch : StatePatch) (state state' : State),
      w.mergePatches writes = .ok patch → w.reduceState patch state = .ok state' →
        w.reduceState patch state' = .ok state' ∧
        (∀ channel ∉ keys patch, get? state' channel = get? state channel) ∧
        ∀ channel spec items, get? w.definition.channels channel = some spec →
          reducerOf spec = .stableList → get? state channel = some (.arr items) →
          (items.map (idText spec.itemIdKey)).Nodup →
          ∃ new, get? state' channel = some (.arr (items ++ new)) ∧
            ((items ++ new).map (idText spec.itemIdKey)).Nodup := by
  constructor
  · intro writes writes' same
    cases done : w.mergePatches writes with
    | ok patch =>
      obtain ⟨patch', done', texts⟩ := w.mergePatches_perm same done
      rw [done']
      exact texts
    | error e =>
      cases done' : w.mergePatches writes' with
      | error e' => trivial
      | ok patch' =>
        obtain ⟨patch, other, _⟩ := w.mergePatches_perm same.symm done'
        rw [done] at other
        cases other
  · intro writes patch state state' merged reduced
    have shape := w.mergePatches_merged merged
    obtain ⟨kept, written⟩ := w.reduceState_spec shape.1 reduced
    refine ⟨w.reduceState_again shape reduced, kept, ?_⟩
    intro channel spec items known kind old distinct
    by_cases inside : channel ∈ keys patch
    · obtain ⟨entry, held, rfl⟩ := List.mem_map.mp inside
      obtain ⟨spec', result, known', here, found⟩ := written entry held
      obtain rfl := Option.some.inj (known.symm.trans known')
      rw [old] at here
      obtain ⟨new, rfl, fresh⟩ := reduceChannel_distinct kind here distinct
      exact ⟨new, found, fresh⟩
    · refine ⟨[], ?_, ?_⟩
      · rw [kept channel inside, old, List.append_nil]
      · rwa [List.append_nil]

end CompiledWorkflow

def noteTaking : WorkflowDefinition where
  name := "notes"
  version := "1"
  stateSchemaVersion := 1
  entryNode := "left"
  nodes := [⟨{ nodeId := "left" }, by decide⟩, ⟨{ nodeId := "right" }, by decide⟩]
  channels := [("notes", ⟨"array", "stable_list", ["left", "right"], "id", by decide, by decide⟩)]
  recursionLimit := 11
  maxSupersteps := 10
  edges := [⟨⟨["left"], "right"⟩, by decide⟩]

theorem noteTaking_accepted : validateDefinition noteTaking = .ok () := by decide +kernel

theorem noteTaking_bound : cycleBindings noteTaking (adjacencyOf noteTaking false) = .ok [] := by
  decide +kernel

def noteWorkflow : CompiledWorkflow := ⟨noteTaking, noteTaking_accepted, [], noteTaking_bound⟩

def noteItem (id text : String) : Json := .obj [("id", .str id), ("text", .str text)]

def leftNotes : String × StatePatch := ("left", [("notes", .arr [noteItem "b" "late"])])

def rightNotes : String × StatePatch :=
  ("right", [("notes", .arr [noteItem "a" "early", noteItem "b" "late"])])

def mergedNotes : StatePatch := [("notes", .arr [noteItem "a" "early", noteItem "b" "late"])]

def oldNotes : State := [("notes", .arr [noteItem "c" "old", noteItem "b" "late"])]

def newNotes : State :=
  [("notes", .arr [noteItem "c" "old", noteItem "b" "late", noteItem "a" "early"])]

/-- Both writers note one thing, which the state holds already. -/
theorem notes_merge_and_replay :
    CompiledWorkflow.SamePatch mergedNotes mergedNotes ∧
    noteWorkflow.reduceState mergedNotes newNotes = .ok newNotes ∧
    ∃ new, get? newNotes "notes" =
        some (.arr ([noteItem "c" "old", noteItem "b" "late"] ++ new)) ∧
      (([noteItem "c" "old", noteItem "b" "late"] ++ new).map
        (CompiledWorkflow.idText "id")).Nodup := by
  have first : noteWorkflow.mergePatches [leftNotes, rightNotes] = .ok mergedNotes := by
    with_unfolding_all rfl
  have second : noteWorkflow.mergePatches [rightNotes, leftNotes] = .ok mergedNotes := by
    with_unfolding_all rfl
  have reduced : noteWorkflow.reduceState mergedNotes oldNotes = .ok newNotes := by
    with_unfolding_all rfl
  have both := CompiledWorkflow.patches_merge_and_replay noteWorkflow
  have orders := both.1 _ _ (List.Perm.swap rightNotes leftNotes [])
  rw [first, second] at orders
  have replay := both.2 _ _ _ _ first reduced
  refine ⟨orders, replay.1, replay.2.2 "notes" _ _ rfl rfl rfl ?_⟩
  decide +kernel

end Workflow
