import HarnessSdk.Library.Checks
import HarnessSdk.Workflow.Patches

/-! The order of parallel writers does not matter to a merged patch, and a merged patch may be
reduced into the state again. -/
namespace PyDict
variable {κ β γ ε : Type} [DecidableEq κ]
open Checks

theorem update_of_disjoint {d : Dict κ β} {entries : List (κ × β)}
    (apart : ∀ k ∈ keys entries, k ∉ keys d) : update d entries = d ++ ofEntries entries := by
  induction entries using List.reverseRecOn with
  | nil => simp [ofEntries, update]
  | append_singleton entries entry ih =>
    have earlier := ih fun k inside => apart k (by
      rw [keys, List.map_append]
      exact List.mem_append_left _ inside)
    have fresh : entry.1 ∉ keys d := apart entry.1 (by simp [keys])
    have set_append : ∀ more : Dict κ β,
        set (d ++ more) entry.1 entry.2 = d ++ set more entry.1 entry.2 := by
      intro more
      clear earlier ih apart
      induction d with
      | nil => rfl
      | cons first rest ih =>
        obtain ⟨j, w⟩ := first
        simp only [keys, List.map_cons, List.mem_cons, not_or] at fresh
        have different : ¬ j = entry.1 := fun same => fresh.1 same.symm
        simp only [List.cons_append, set, different, if_false]
        rw [ih fresh.2]
    unfold ofEntries update at *
    rw [List.foldl_append, List.foldl_append, earlier]
    exact set_append _

theorem perm_of_get? {d d' : Dict κ β} (distinct : (keys d).Nodup) (distinct' : (keys d').Nodup)
    (same : ∀ k, get? d k = get? d' k) : d.Perm d' := by
  rw [List.perm_ext_iff_of_nodup distinct.of_map distinct'.of_map]
  intro entry
  rw [← get?_eq_some_iff distinct, ← get?_eq_some_iff distinct', same]

section Comprehension
variable {f : κ × β → Except ε (κ × γ)}

theorem get?_mapM (keyed : ∀ entry out, f entry = .ok out → out.1 = entry.1) {d : Dict κ β}
    {outs : List (κ × γ)} (done : d.mapM f = .ok outs) (k : κ) :
    (get? d k = none → get? outs k = none) ∧
      ∀ b, get? d k = some b → ∃ c, get? outs k = some c ∧ f (k, b) = .ok (k, c) := by
  induction d generalizing outs with
  | nil =>
    cases done
    simp
  | cons entry rest ih =>
    obtain ⟨out, later, here, there, rfl⟩ := cons_mapM done
    have kept := keyed entry out here
    obtain ⟨j, b⟩ := entry
    obtain ⟨j', c⟩ := out
    dsimp only at kept
    subst kept
    by_cases same : j' = k
    · subst same
      simp only [get?, if_true]
      constructor
      · intro absent
        cases absent
      · intro b' found
        cases found
        exact ⟨c, rfl, here⟩
    · simp only [get?, same, if_false]
      exact ih there

end Comprehension
end PyDict

namespace Workflow
open PyDict PyText Checks
namespace CompiledWorkflow
variable (w : CompiledWorkflow)

/-! What the patches of a superstep write to one channel. -/

def writesTo (writes : List (String × StatePatch)) (channel : String) : Writes :=
  writes.flatMap fun write =>
    (write.2.filter (·.1 = channel)).map fun entry => (write.1, entry.2)

def extend (old : Option Writes) (more : Writes) : Option Writes :=
  if more = [] then old else some (old.getD [] ++ more)

theorem extend_append (old : Option Writes) (first later : Writes) :
    extend (extend old first) later = extend old (first ++ later) := by
  unfold extend
  by_cases none_first : first = []
  · simp [none_first]
  · by_cases none_later : later = [] <;> simp [none_first, none_later]

def addWrites (writer : String) (patch : StatePatch) (grouped : Dict String Writes) :
    Dict String Writes :=
  patch.foldl (fun acc entry =>
    set acc entry.1 ((get? acc entry.1).getD [] ++ [(writer, entry.2)])) grouped

theorem get?_addWrites (writer : String) (patch : StatePatch) (grouped : Dict String Writes)
    (channel : String) : get? (addWrites writer patch grouped) channel =
      extend (get? grouped channel)
        ((patch.filter (·.1 = channel)).map fun entry => (writer, entry.2)) := by
  induction patch generalizing grouped with
  | nil => rfl
  | cons entry rest ih =>
    rw [addWrites, List.foldl_cons, ← addWrites, ih]
    by_cases here : entry.1 = channel
    · subst here
      rw [get?_set_self, List.filter_cons_of_pos (by simp), List.map_cons]
      unfold extend
      split <;> simp [*]
    · rw [get?_set_ne _ _ here, List.filter_cons_of_neg (by simpa using here)]

theorem addWrites_nodup (writer : String) (patch : StatePatch) {grouped : Dict String Writes}
    (distinct : (keys grouped).Nodup) : (keys (addWrites writer patch grouped)).Nodup := by
  induction patch generalizing grouped with
  | nil => exact distinct
  | cons entry rest ih => exact ih (keys_set_nodup _ _ distinct)

def Valid (writes : List (String × StatePatch)) : Prop :=
  ∀ write ∈ writes, w.validatePatch write.1 write.2 = .ok ()

variable {writes : List (String × StatePatch)}

theorem groupWrites_of_valid (valid : w.Valid writes) (grouped : Dict String Writes) :
    ∃ out, w.groupWrites writes grouped = .ok out := by
  induction writes generalizing grouped with
  | nil => exact ⟨grouped, rfl⟩
  | cons write rest ih =>
    obtain ⟨writer, patch⟩ := write
    rw [groupWrites, valid _ List.mem_cons_self]
    exact ih (fun later inside => valid later (List.mem_cons_of_mem _ inside)) _

theorem groupWrites_spec {grouped out : Dict String Writes}
    (done : w.groupWrites writes grouped = .ok out) (distinct : (keys grouped).Nodup) :
    w.Valid writes ∧ (keys out).Nodup ∧
      ∀ channel, get? out channel = extend (get? grouped channel) (writesTo writes channel) := by
  induction writes generalizing grouped with
  | nil =>
    cases done
    exact ⟨nofun, distinct, fun channel => rfl⟩
  | cons write rest ih =>
    obtain ⟨writer, patch⟩ := write
    rw [groupWrites] at done
    obtain ⟨⟨⟩, first, done⟩ := bind_eq_ok.mp done
    obtain ⟨valid, distinct, found⟩ := ih done (addWrites_nodup writer patch distinct)
    refine ⟨?_, distinct, ?_⟩
    · intro write inside
      rcases List.mem_cons.mp inside with rfl | later
      · exact first
      · exact valid write later
    · intro channel
      rw [found, ← addWrites, get?_addWrites, extend_append]
      rfl

def mergedChannel (channel : String) (writes : Writes) : Engine Json :=
  match get? w.definition.channels channel with
  | none => .error (.keyError channel)
  | some spec => mergeChannel channel spec writes

def mergedEntry (entry : String × Writes) : Engine (String × Json) :=
  match get? w.definition.channels entry.1 with
  | none => .error (.keyError entry.1)
  | some spec => return (entry.1, ← mergeChannel entry.1 spec entry.2)

theorem mergedEntry_eq_ok {channel : String} {writes : Writes} {out : String × Json} :
    w.mergedEntry (channel, writes) = .ok out ↔
      out.1 = channel ∧ w.mergedChannel channel writes = .ok out.2 := by
  unfold mergedEntry mergedChannel
  cases get? w.definition.channels channel with
  | none => simp
  | some spec =>
    dsimp only [bind, Except.bind, pure, Except.pure]
    cases mergeChannel channel spec writes with
    | error e => simp
    | ok value =>
      obtain ⟨k, v⟩ := out
      simp [eq_comm]

theorem mergePatches_eq (writes : List (String × StatePatch)) :
    w.mergePatches writes = (w.groupWrites writes []).bind fun grouped =>
      grouped.mapM w.mergedEntry := rfl

theorem mergePatches_spec {patch : StatePatch} (done : w.mergePatches writes = .ok patch) :
    w.Valid writes ∧ (keys patch).Nodup ∧ ∀ channel,
      (writesTo writes channel = [] ∧ get? patch channel = none) ∨
      (writesTo writes channel ≠ [] ∧ ∃ value, get? patch channel = some value ∧
        w.mergedChannel channel (writesTo writes channel) = .ok value) := by
  rw [mergePatches_eq] at done
  obtain ⟨grouped, first, done⟩ := bind_eq_ok.mp done
  obtain ⟨valid, distinct, found⟩ := w.groupWrites_spec first (by simp [keys])
  have keyed : ∀ entry out, w.mergedEntry entry = .ok out → out.1 = entry.1 :=
    fun entry out here => (w.mergedEntry_eq_ok.mp here).1
  have kept : keys patch = keys grouped := map_of_mapM done keyed
  refine ⟨valid, kept ▸ distinct, ?_⟩
  intro channel
  obtain ⟨absent, present⟩ := get?_mapM keyed done channel
  have at_channel := found channel
  unfold extend at at_channel
  by_cases unwritten : writesTo writes channel = []
  · rw [if_pos unwritten] at at_channel
    exact Or.inl ⟨unwritten, absent at_channel⟩
  · rw [if_neg unwritten] at at_channel
    obtain ⟨value, here, merged⟩ := present _ at_channel
    exact Or.inr ⟨unwritten, value, here, (w.mergedEntry_eq_ok.mp merged).2⟩

theorem mergePatches_of_valid (valid : w.Valid writes)
    (each : ∀ channel, writesTo writes channel ≠ [] → ∃ value, w.mergedChannel channel (writesTo
      writes channel) = .ok value) : ∃ patch, w.mergePatches writes = .ok patch := by
  obtain ⟨grouped, first⟩ := w.groupWrites_of_valid valid []
  obtain ⟨_, distinct, found⟩ := w.groupWrites_spec first (by simp [keys])
  rw [mergePatches_eq, first]
  apply exists_mapM
  intro entry inside
  obtain ⟨channel, group⟩ := entry
  have at_channel := found channel
  rw [get?_eq_some_of_mem distinct inside] at at_channel
  unfold extend at at_channel
  split at at_channel
  · cases at_channel
  · rename_i written
    cases at_channel
    obtain ⟨value, merged⟩ := each channel written
    exact ⟨(channel, value), w.mergedEntry_eq_ok.mpr ⟨rfl, merged⟩⟩

end CompiledWorkflow

/-! Canonical texts of objects and lists. -/

theorem canonicalItems_eq (items : List Json) : canonicalItems items = items.map canonicalJson := by
  induction items with
  | nil => rfl
  | cons item rest ih => rw [canonicalItems, ih, List.map_cons]

theorem canonicalFields_eq (fields : List (String × Json)) :
    canonicalFields fields = fields.map fun field => (field.1, canonicalJson field.2) := by
  induction fields with
  | nil => rfl
  | cons field rest ih => rw [canonicalFields, ih, List.map_cons]

theorem eq_of_distinct_keys {β : Type} {d : Dict String β} (distinct : (keys d).Nodup) :
    ∀ a ∈ d, ∀ b ∈ d, a.1 = b.1 → a = b :=
  fun _ inside _ inside' => List.inj_on_of_nodup_map distinct inside inside'

theorem canonicalJson_obj_of_perm {fields fields' : Dict String Json}
    (same : fields.Perm fields') (distinct : (keys fields).Nodup) :
    canonicalJson (.obj fields) = canonicalJson (.obj fields') := by
  rw [canonicalJson, canonicalJson, canonicalFields_eq, canonicalFields_eq]
  have texts := same.map fun field => (field.1, canonicalJson field.2)
  have apart := eq_of_distinct_keys (d := fields.map fun field => (field.1, canonicalJson field.2))
    (by simpa [keys, Function.comp_def] using distinct)
  rw [sortedBy, sortedBy, sort_of_perm texts apart]

namespace CompiledWorkflow

/-! Objects of disjoint keys. -/

def objectFields : Json → List (String × Json)
  | .obj fields => fields
  | _ => []

def Apart (a b : String × Json) : Prop :=
  ∀ k ∈ keys (objectFields a.2), k ∉ keys (objectFields b.2)

theorem Apart.symm {a b : String × Json} (apart : Apart a b) : Apart b a :=
  fun k inside there => apart k there inside

/-- Every write is an object with keys of its own, and the result is all their entries. -/
structure Disjoint (writes : Writes) (result merged : Dict String Json) : Prop where
  objects : ∀ write ∈ writes, ∃ fields, write.2 = .obj fields
  fresh : ∀ write ∈ writes, ∀ k ∈ keys (objectFields write.2), k ∉ keys result
  apart : writes.Pairwise Apart
  same : merged = result ++ writes.flatMap fun write => ofEntries (objectFields write.2)

variable {channel : String}

variable {writer : String} {result merged : Dict String Json} {writes : Writes}
  {entries' : List (String × Json)}

theorem mergeDisjoint_cons {fields : List (String × Json)} {rest : Writes} :
    mergeDisjoint channel ((writer, .obj fields) :: rest) result = .ok merged ↔
      (∀ k ∈ keys fields, k ∉ keys result) ∧
        mergeDisjoint channel rest (update result fields) = .ok merged := by
  rw [mergeDisjoint]
  by_cases clear : (keys result).filter (· ∈ keys fields) = []
  · have apart : ∀ k ∈ keys fields, k ∉ keys result := by
      intro k inside old
      have both : k ∈ (keys result).filter (· ∈ keys fields) := by simp [old, inside]
      rw [clear] at both
      cases both
    rw [if_neg (by simpa using clear)]
    exact (and_iff_right apart).symm
  · rw [if_pos clear]
    constructor
    · intro impossible
      cases impossible
    · intro both
      obtain ⟨k, overlap⟩ := List.exists_mem_of_ne_nil _ clear
      simp only [List.mem_filter, decide_eq_true_eq] at overlap
      exact absurd overlap.1 (both.1 k overlap.2)

theorem mergeDisjoint_eq_ok :
    mergeDisjoint channel writes result = .ok merged ↔ Disjoint writes result merged := by
  induction writes generalizing result with
  | nil =>
    constructor
    · intro done
      cases done
      exact ⟨nofun, nofun, List.Pairwise.nil, by simp⟩
    · intro disjoint
      rw [disjoint.same]
      simp [mergeDisjoint]
  | cons write rest ih =>
    obtain ⟨writer, value⟩ := write
    constructor
    · intro done
      cases value with
      | obj fields =>
        obtain ⟨fresh, done⟩ := mergeDisjoint_cons.mp done
        have later := ih.mp done
        refine ⟨?_, ?_, ?_, ?_⟩
        · exact List.forall_mem_cons.mpr ⟨⟨fields, rfl⟩, later.objects⟩
        · refine List.forall_mem_cons.mpr ⟨fresh, ?_⟩
          intro write inside k there old
          exact later.fresh write inside k there ((mem_keys_update ..).mpr (Or.inl old))
        · refine List.pairwise_cons.mpr ⟨?_, later.apart⟩
          intro write inside k here there
          exact later.fresh write inside k there ((mem_keys_update ..).mpr (Or.inr here))
        · rw [later.same, update_of_disjoint fresh, List.append_assoc]
          rfl
      | _ => cases done
    · intro disjoint
      obtain ⟨fields, same⟩ := disjoint.objects _ List.mem_cons_self
      dsimp only at same
      subst same
      have fresh : ∀ k ∈ keys fields, k ∉ keys result := disjoint.fresh _ List.mem_cons_self
      refine mergeDisjoint_cons.mpr ⟨fresh, ih.mpr ⟨?_, ?_, ?_, ?_⟩⟩
      · exact fun write inside => disjoint.objects write (List.mem_cons_of_mem _ inside)
      · intro write inside k there old
        rcases (mem_keys_update ..).mp old with before | here
        · exact disjoint.fresh write (List.mem_cons_of_mem _ inside) k there before
        · exact (List.pairwise_cons.mp disjoint.apart).1 write inside k here there
      · exact (List.pairwise_cons.mp disjoint.apart).2
      · rw [disjoint.same, update_of_disjoint fresh, List.append_assoc]
        rfl

theorem mergeDisjoint_nodup (done : mergeDisjoint channel writes result = .ok merged)
    (distinct : (keys result).Nodup) : (keys merged).Nodup := by
  induction writes generalizing result with
  | nil =>
    cases done
    exact distinct
  | cons write rest ih =>
    obtain ⟨writer, value⟩ := write
    cases value with
    | obj fields => exact ih (mergeDisjoint_cons.mp done).2 (keys_update_nodup fields distinct)
    | _ => cases done

theorem mergeDisjoint_perm {writes' : Writes} (same : writes.Perm writes')
    (done : mergeDisjoint channel writes [] = .ok merged) :
    ∃ merged', mergeDisjoint channel writes' [] = .ok merged' ∧ merged.Perm merged' := by
  have disjoint := mergeDisjoint_eq_ok.mp done
  refine ⟨_, mergeDisjoint_eq_ok.mpr ⟨?_, ?_, ?_, rfl⟩, ?_⟩
  · exact fun write inside => disjoint.objects write (same.mem_iff.mpr inside)
  · exact fun write inside => disjoint.fresh write (same.mem_iff.mpr inside)
  · exact (same.pairwise_iff Apart.symm).mp disjoint.apart
  · rw [disjoint.same]
    exact same.flatMap_right _

/-! Lists of items with stable ids. -/

def arrayItems : Json → List Json
  | .arr items => items
  | _ => []

def itemEntry (idKey : String) (item : Json) : Option (String × Json) :=
  (stableItem idKey item).bind fun found =>
    (itemIdFragment found.1).map fun _ => (canonicalJson found.1, item)

variable {idKey : String}

theorem stableItem_same {item id item' : Json} (found : stableItem idKey item = some (id, item')) :
    item' = item := by
  cases item with
  | obj fields =>
    obtain ⟨id', _, same⟩ := Option.map_eq_some_iff.mp found
    exact (congrArg Prod.snd same).symm
  | _ => cases found

def Agrees (items : Dict String Json) (entries : List (String × Json)) : Prop :=
  (∀ entry ∈ entries, ∀ old, get? items entry.1 = some old →
    canonicalJson old = canonicalJson entry.2) ∧
  entries.Pairwise fun a b => a.1 = b.1 → canonicalJson a.2 = canonicalJson b.2

variable {items : Dict String Json} {entry : String × Json} {entries : List (String × Json)}

theorem agrees_cons {rest : List (String × Json)} :
    Agrees items (entry :: rest) ↔
      (∀ old, get? items entry.1 = some old → canonicalJson old = canonicalJson entry.2) ∧
        Agrees (set items entry.1 entry.2) rest := by
  unfold Agrees
  rw [List.forall_mem_cons, List.pairwise_cons]
  constructor
  · intro agrees
    obtain ⟨⟨here, older⟩, first, later⟩ := agrees
    refine ⟨here, ?_, later⟩
    intro e inside old found
    rw [get?_set] at found
    split at found
    · rename_i same
      cases found
      exact first e inside same
    · exact older e inside old found
  · intro agrees
    obtain ⟨here, older, later⟩ := agrees
    have first : ∀ e ∈ rest, entry.1 = e.1 → canonicalJson entry.2 = canonicalJson e.2 := by
      intro e inside same
      apply older e inside
      rw [get?_set, if_pos same]
    refine ⟨⟨here, ?_⟩, first, later⟩
    intro e inside old found
    by_cases same : entry.1 = e.1
    · rw [← first e inside same]
      exact here old (same ▸ found)
    · apply older e inside
      rw [get?_set, if_neg same, found]

theorem agrees_append {first later : List (String × Json)} :
    Agrees items (first ++ later) ↔ Agrees items first ∧ Agrees (update items first) later := by
  induction first generalizing items with
  | nil => exact (and_iff_right ⟨nofun, List.Pairwise.nil⟩).symm
  | cons entry rest ih =>
    rw [List.cons_append, agrees_cons, agrees_cons, ih, and_assoc]
    rfl

theorem mergeItems_cons {item : Json} {rest : List Json} :
    mergeItems channel idKey writer (item :: rest) items = .ok merged ↔
      ∃ entry, itemEntry idKey item = some entry ∧
        (∀ old, get? items entry.1 = some old → canonicalJson old = canonicalJson entry.2) ∧
        mergeItems channel idKey writer rest (set items entry.1 entry.2) = .ok merged := by
  rw [mergeItems, itemEntry]
  cases found : stableItem idKey item with
  | none => simp [mergeConflict]
  | some pair =>
    obtain ⟨id, item'⟩ := pair
    obtain rfl := stableItem_same found
    dsimp only [Option.bind]
    cases printed : itemIdFragment id with
    | none => simp [mergeConflict]
    | some fragment =>
      simp only [Option.map_some, Option.some.injEq, exists_eq_left']
      cases held : get? items (canonicalJson id) with
      | none => simp
      | some old =>
        simp only [Json.sameText, beq_iff_eq, Option.some.injEq, forall_eq']
        by_cases same : canonicalJson old = canonicalJson item' <;> simp [same]

theorem mergeItems_eq_ok {values : List Json} :
    mergeItems channel idKey writer values items = .ok merged ↔
      (∀ item ∈ values, (itemEntry idKey item).isSome) ∧
        Agrees items (values.filterMap (itemEntry idKey)) ∧
        merged = update items (values.filterMap (itemEntry idKey)) := by
  induction values generalizing items with
  | nil =>
    have empty : Agrees items [] := ⟨nofun, List.Pairwise.nil⟩
    rw [mergeItems]
    simp [empty, update, eq_comm (a := items)]
  | cons item rest ih =>
    rw [mergeItems_cons, List.forall_mem_cons]
    cases found : itemEntry idKey item with
    | none => simp
    | some entry =>
      rw [List.filterMap_cons_some found, agrees_cons]
      simp only [Option.some.injEq, exists_eq_left', ih, Option.isSome_some, true_and]
      exact ⟨fun all => ⟨all.2.1, ⟨all.1, all.2.2.1⟩, all.2.2.2⟩,
        fun all => ⟨all.2.1.1, all.1, all.2.1.2, all.2.2⟩⟩

def listedItems (writes : Writes) : List Json := writes.flatMap fun write => arrayItems write.2

theorem mergeStable_eq_ok :
    mergeStable channel idKey writes items = .ok merged ↔
      (∀ write ∈ writes, ∃ values, write.2 = .arr values) ∧
        (∀ item ∈ listedItems writes, (itemEntry idKey item).isSome) ∧
        Agrees items ((listedItems writes).filterMap (itemEntry idKey)) ∧
        merged = update items ((listedItems writes).filterMap (itemEntry idKey)) := by
  induction writes generalizing items with
  | nil =>
    have empty : Agrees items [] := ⟨nofun, List.Pairwise.nil⟩
    rw [mergeStable]
    simp [listedItems, empty, update, eq_comm (a := items)]
  | cons write rest ih =>
    obtain ⟨writer, value⟩ := write
    cases value with
    | arr values =>
      have listed : listedItems ((writer, .arr values) :: rest) = values ++ listedItems rest := rfl
      rw [mergeStable, listed, List.filterMap_append, agrees_append, List.forall_mem_cons]
      constructor
      · intro done
        obtain ⟨between, here, done⟩ := bind_eq_ok.mp done
        obtain ⟨some_here, agrees_here, rfl⟩ := mergeItems_eq_ok.mp here
        obtain ⟨arrays, some_later, agrees_later, rfl⟩ := ih.mp done
        refine ⟨⟨⟨values, rfl⟩, arrays⟩, ?_, ⟨agrees_here, agrees_later⟩, ?_⟩
        · exact List.forall_mem_append.mpr ⟨some_here, some_later⟩
        · simp [update]
      · intro all
        obtain ⟨⟨_, arrays⟩, each, ⟨agrees_here, agrees_later⟩, rfl⟩ := all
        obtain ⟨some_here, some_later⟩ := List.forall_mem_append.mp each
        refine bind_eq_ok.mpr ⟨_, mergeItems_eq_ok.mpr ⟨some_here, agrees_here, rfl⟩, ?_⟩
        refine ih.mpr ⟨arrays, some_later, agrees_later, ?_⟩
        simp [update]
    | _ =>
      constructor
      · intro impossible
        cases impossible
      · intro all
        obtain ⟨values, impossible⟩ := all.1 _ List.mem_cons_self
        cases impossible

theorem text_of_agrees (agrees : Agrees [] entries) (inside : entry ∈ entries) :
    (get? (ofEntries entries) entry.1).map canonicalJson = some (canonicalJson entry.2) := by
  have key : entry.1 ∈ keys (ofEntries entries) :=
    (mem_keys_ofEntries entries entry.1).mpr (List.mem_map_of_mem inside)
  obtain ⟨value, found⟩ := Option.isSome_iff_exists.mp ((get?_isSome_iff _ _).mpr key)
  rw [found, Option.map_some]
  rcases get?_update_cases found with written | impossible
  · have all := agrees.2.forall_of_forall_of_flip (fun _ _ _ => rfl)
      (agrees.2.imp fun same equal => (same equal.symm).symm)
    exact congrArg some (all written inside rfl)
  · cases impossible

theorem Agrees.perm (agrees : Agrees [] entries) (same : entries.Perm entries') :
    Agrees [] entries' :=
  ⟨nofun, (same.pairwise_iff fun equal k => (equal k.symm).symm).mp agrees.2⟩

def sortedTexts (items : Dict String Json) : List String :=
  ((sortedBy Prod.fst items).map Prod.snd).map canonicalJson

theorem sortedTexts_perm (same : entries.Perm entries') (agrees : Agrees [] entries) :
    sortedTexts (ofEntries entries) = sortedTexts (ofEntries entries') := by
  have as_pairs : ∀ items : Dict String Json, sortedTexts items =
      (sortedBy Prod.fst (items.map fun entry => (entry.1, canonicalJson entry.2))).map
        Prod.snd := by
    intro items
    unfold sortedTexts sortedBy
    rw [← List.map_insertionSort (fun a b : String × Json => a.1 ≤ b.1) _
      (fun entry : String × Json => (entry.1, canonicalJson entry.2)) items
      (fun a _ b _ => Iff.rfl), List.map_map, List.map_map]
    rfl
  have keyed : ∀ items : List (String × Json),
      (keys ((ofEntries items).map fun entry => (entry.1, canonicalJson entry.2))).Nodup := by
    intro items
    simpa [keys, Function.comp_def] using keys_ofEntries_nodup items
  have texts : ((ofEntries entries).map fun entry => (entry.1, canonicalJson entry.2)).Perm
      ((ofEntries entries').map fun entry => (entry.1, canonicalJson entry.2)) := by
    apply perm_of_get? (keyed entries) (keyed entries')
    intro k
    rw [get?_map, get?_map]
    by_cases written : k ∈ keys entries
    · obtain ⟨entry, inside, rfl⟩ := List.mem_map.mp written
      rw [text_of_agrees agrees inside,
        text_of_agrees (agrees.perm same) (same.mem_iff.mp inside)]
    · have other : k ∉ keys entries' := fun there =>
        written ((same.map Prod.fst).mem_iff.mpr there)
      rw [← mem_keys_ofEntries, ← get?_eq_none_iff] at written other
      rw [written, other]
  rw [as_pairs, as_pairs, sortedBy, sortedBy, sort_of_perm texts (eq_of_distinct_keys (keyed _))]

/-! Merging does not depend on the order of the writers. -/

theorem mergeChannel_perm {spec : ChannelSpec} {writes' : Writes} (same : writes.Perm writes')
    {value : Json} (done : mergeChannel channel spec writes = .ok value) :
    ∃ value', mergeChannel channel spec writes' = .ok value' ∧
      canonicalJson value = canonicalJson value' := by
  unfold mergeChannel at done ⊢
  cases kind : reducerOf spec with
  | singleWriter =>
    rw [kind] at done
    match writes, same, done with
    | [write], same, done =>
      obtain rfl : writes' = [write] := (List.singleton_perm.mp same).symm
      exact ⟨value, done, rfl⟩
    | [], _, done => cases done
    | _ :: _ :: _, _, done => cases done
  | dictDisjoint =>
    rw [kind] at done
    obtain ⟨merged, first, done⟩ := bind_eq_ok.mp done
    cases done
    obtain ⟨merged', second, texts⟩ := mergeDisjoint_perm same first
    refine ⟨.obj merged', bind_eq_ok.mpr ⟨merged', second, rfl⟩, ?_⟩
    exact canonicalJson_obj_of_perm texts (mergeDisjoint_nodup first List.nodup_nil)
  | stableList =>
    rw [kind] at done
    obtain ⟨merged, first, done⟩ := bind_eq_ok.mp done
    cases done
    obtain ⟨arrays, each, agrees, rfl⟩ := mergeStable_eq_ok.mp first
    have items : (listedItems writes).Perm (listedItems writes') := same.flatMap_right _
    have entries := items.filterMap (itemEntry spec.itemIdKey)
    refine ⟨_, bind_eq_ok.mpr ⟨_, mergeStable_eq_ok.mpr ⟨?_, ?_, ?_, rfl⟩, rfl⟩, ?_⟩
    · exact fun write inside => arrays write (same.mem_iff.mpr inside)
    · exact fun item inside => each item (items.mem_iff.mpr inside)
    · exact agrees.perm entries
    · have texts := sortedTexts_perm entries agrees
      unfold sortedTexts at texts
      rw [canonicalJson, canonicalJson, canonicalItems_eq, canonicalItems_eq]
      unfold ofEntries at texts
      rw [texts]

variable (w : CompiledWorkflow)

theorem mergedChannel_perm {writes' : Writes} (same : writes.Perm writes') {value : Json}
    (done : w.mergedChannel channel writes = .ok value) :
    ∃ value', w.mergedChannel channel writes' = .ok value' ∧
      canonicalJson value = canonicalJson value' := by
  unfold mergedChannel at done ⊢
  cases known : get? w.definition.channels channel with
  | none =>
    rw [known] at done
    cases done
  | some spec =>
    rw [known] at done
    exact mergeChannel_perm same done

theorem writesTo_perm {writes writes' : List (String × StatePatch)} (same : writes.Perm writes')
    (channel : String) : (writesTo writes channel).Perm (writesTo writes' channel) :=
  same.flatMap_right _

def SamePatch (patch patch' : StatePatch) : Prop :=
  ∀ channel, (get? patch channel).map canonicalJson = (get? patch' channel).map canonicalJson

theorem mergePatches_perm {writes writes' : List (String × StatePatch)}
    (same : writes.Perm writes') {patch : StatePatch}
    (done : w.mergePatches writes = .ok patch) :
    ∃ patch', w.mergePatches writes' = .ok patch' ∧ SamePatch patch patch' := by
  obtain ⟨valid, _, found⟩ := w.mergePatches_spec done
  have unwritten : ∀ channel, writesTo writes' channel = [] → writesTo writes channel = [] :=
    fun channel empty => List.perm_nil.mp (empty ▸ writesTo_perm same channel)
  have merged : ∀ channel, writesTo writes' channel ≠ [] →
      ∃ value', w.mergedChannel channel (writesTo writes' channel) = .ok value' := by
    intro channel written
    rcases found channel with absent | present
    · have empty := absent.1 ▸ writesTo_perm same channel
      exact absurd (List.nil_perm.mp empty) written
    · obtain ⟨_, value, _, here⟩ := present
      obtain ⟨value', there, _⟩ := w.mergedChannel_perm (writesTo_perm same channel) here
      exact ⟨value', there⟩
  obtain ⟨patch', done'⟩ := w.mergePatches_of_valid
    (fun write inside => valid write (same.mem_iff.mpr inside)) merged
  refine ⟨patch', done', ?_⟩
  intro channel
  rcases found channel with absent | present
  · rcases (w.mergePatches_spec done').2.2 channel with absent' | present'
    · rw [absent.2, absent'.2]
    · have empty := absent.1 ▸ writesTo_perm same channel
      exact absurd (List.nil_perm.mp empty) present'.1
  · obtain ⟨written, value, at_channel, here⟩ := present
    rcases (w.mergePatches_spec done').2.2 channel with absent' | present'
    · exact absurd (unwritten channel absent'.1) written
    · obtain ⟨_, value', at_channel', there⟩ := present'
      obtain ⟨value'', there'', texts⟩ := w.mergedChannel_perm (writesTo_perm same channel) here
      obtain rfl := Except.ok.inj (there.symm.trans there'')
      rw [at_channel, at_channel', Option.map_some, Option.map_some, texts]

end CompiledWorkflow
end Workflow
