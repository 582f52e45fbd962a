import HarnessSdk.Library.Checks
import HarnessSdk.Workflow.Components

/-! `_cycle_bindings` succeeds when every cycle holds an edge bound to a declared budget. -/
namespace Workflow
open PyDict PyText Digraph Relation

/-- What one key of `loop_budget_bindings` selects: an edge, the edges into a node of the
component, or every edge of the component. -/
def selects (component : List String) (key : String) (edge : EdgeKey) : Bool :=
  match splitArrow key with
  | some (source, target) => edge = (strip source, strip target)
  | none => if key ∈ component then edge.2 = key else key = join "," (sorted component)

def explicitBudget (d : WorkflowDefinition) (component : List String) (edge : EdgeKey) :
    Option String :=
  (d.loopBudgetBindings.filter fun entry => selects component entry.1 edge).getLast?.map Prod.snd

/-- The budget of an edge inside a component. Where no binding selects any of its edges, the only
budget is that of the backward edges of the only cyclic component. -/
def chosenBudget (d : WorkflowDefinition) (adjacency : Adjacency) (cyclicCount : Nat)
    (component : List String) (edge : EdgeKey) : Option String :=
  if ∃ other ∈ internalEdges component adjacency, (explicitBudget d component other).isSome then
    explicitBudget d component edge
  else
    match d.loopBudgets with
    | [(budget, _)] =>
      if cyclicCount = 1 ∧ (sorted component).idxOf edge.2 ≤ (sorted component).idxOf edge.1 then
        some budget
      else none
    | _ => none

section
variable {component : List String} {adjacency : Adjacency}

theorem mem_internalEdges {edge : EdgeKey} :
    edge ∈ internalEdges component adjacency ↔
      edge.1 ∈ component ∧ edge.2 ∈ component ∧ adjacency.Edge edge.1 edge.2 := by
  obtain ⟨source, target⟩ := edge
  simp only [internalEdges, List.mem_flatMap, List.mem_map, List.mem_filter, decide_eq_true_eq,
    Prod.mk.injEq, Adjacency.Edge]
  constructor
  · intro found
    obtain ⟨a, inside, b, ⟨step, there⟩, rfl, rfl⟩ := found
    exact ⟨inside, there, step⟩
  · intro all
    obtain ⟨inside, there, step⟩ := all
    exact ⟨source, inside, target, ⟨step, there⟩, rfl, rfl⟩

variable (edges internal : List EdgeKey)

theorem get?_setAll (selected : Dict EdgeKey String) (budget : String) (edge : EdgeKey) :
    get? (edges.foldl (fun acc e => set acc e budget) selected) edge =
      if edge ∈ edges then some budget else get? selected edge := by
  induction edges generalizing selected with
  | nil => simp
  | cons e rest ih =>
    rw [List.foldl_cons, ih, get?_set]
    by_cases later : edge ∈ rest
    · simp [later]
    · by_cases here : e = edge
      · simp [here]
      · simp [later, here, Ne.symm here]

variable {selected : Dict EdgeKey String}

theorem setAll_nodup (budget : String) (distinct : (keys selected).Nodup) :
    (keys (edges.foldl (fun acc e => set acc e budget) selected)).Nodup := by
  induction edges generalizing selected with
  | nil => exact distinct
  | cons e rest ih => exact ih (keys_set_nodup _ _ distinct)

theorem get?_selectBinding (selected : Dict EdgeKey String) (key budget : String) (edge : EdgeKey) :
    get? (selectBinding component internal selected key budget) edge =
      if edge ∈ internal ∧ selects component key edge then some budget
      else get? selected edge := by
  unfold selectBinding selects
  cases splitArrow key with
  | some parts =>
    obtain ⟨source, target⟩ := parts
    dsimp only
    by_cases inside : (strip source, strip target) ∈ internal
    · rw [if_pos inside, get?_set]
      by_cases here : (strip source, strip target) = edge
      · subst here
        simp [inside]
      · simp [here, Ne.symm here]
    · rw [if_neg inside]
      by_cases here : edge = (strip source, strip target)
      · subst here
        simp [inside]
      · simp [here]
  | none =>
    dsimp only
    by_cases node : key ∈ component
    · rw [if_pos node, if_pos node, get?_setAll]
      simp
    · rw [if_neg node, if_neg node]
      by_cases whole : key = join "," (sorted component)
      · rw [if_pos whole, get?_setAll]
        simp [whole]
      · simp [whole]

theorem selectBinding_nodup (key budget : String) (distinct : (keys selected).Nodup) :
    (keys (selectBinding component internal selected key budget)).Nodup := by
  unfold selectBinding
  split
  · split
    · exact keys_set_nodup _ _ distinct
    · exact distinct
  · split
    · exact setAll_nodup _ _ distinct
    · split
      · exact setAll_nodup _ _ distinct
      · exact distinct

theorem get?_bindings (internal : List EdgeKey) (bindings : Dict String String)
    (selected : Dict EdgeKey String) (edge : EdgeKey) :
    get? (bindings.foldl
        (fun acc entry => selectBinding component internal acc entry.1 entry.2) selected) edge =
      if edge ∈ internal then
        ((bindings.filter fun entry => selects component entry.1 edge).getLast?.map
          Prod.snd).or (get? selected edge)
      else get? selected edge := by
  induction bindings generalizing selected with
  | nil => simp
  | cons entry rest ih =>
    rw [List.foldl_cons, ih, get?_selectBinding]
    by_cases inside : edge ∈ internal
    · by_cases here : selects component entry.1 edge = true
      · simp only [List.filter_cons, here, if_true, List.getLast?_cons]
        cases (rest.filter fun entry => selects component entry.1 edge).getLast? <;>
          simp [inside]
      · simp [here]
    · simp [inside]

theorem bindings_nodup (bindings : Dict String String) (distinct : (keys selected).Nodup) :
    (keys (bindings.foldl
      (fun acc entry => selectBinding component internal acc entry.1 entry.2) selected)).Nodup := by
  induction bindings generalizing selected with
  | nil => exact distinct
  | cons entry rest ih => exact ih (selectBinding_nodup internal _ _ distinct)

end

/-- The variable `selected` of `_cycle_bindings` for one component. -/
def selectedEdges (d : WorkflowDefinition) (adjacency : Adjacency) (cyclicCount : Nat)
    (component : List String) : Dict EdgeKey String :=
  let internal := internalEdges component adjacency
  let bound := d.loopBudgetBindings.foldl
    (fun acc entry => selectBinding component internal acc entry.1 entry.2) []
  match bound, d.loopBudgets with
  | [], [(budget, _)] =>
    if cyclicCount = 1 then
      let order := sorted component
      ofEntries ((internal.filter fun edge => order.idxOf edge.2 ≤ order.idxOf edge.1).map
        fun edge => (edge, budget))
    else []
  | _, _ => bound

def unboundEdges (adjacency : Adjacency) (component : List String)
    (selected : Dict EdgeKey String) : Adjacency :=
  component.map fun source =>
    (source, (adjacency.targets source).filter fun target =>
      target ∈ component ∧ get? selected (source, target) = none)

theorem get?_comprehension {β : Type} (f : String → β) (items : List String) (k : String) :
    get? (items.map fun item => (item, f item)) k = if k ∈ items then some (f k) else none := by
  induction items with
  | nil => rfl
  | cons item rest ih =>
    rw [List.map_cons, get?, ih]
    by_cases here : item = k
    · simp [here]
    · simp [here, Ne.symm here]

section
variable (d : WorkflowDefinition) (adjacency : Adjacency) (cyclicCount : Nat)
  (component : List String)

theorem eq_nil_of_get?_none {β : Type} {entries : Dict EdgeKey β}
    (none_held : ∀ edge, get? entries edge = none) : entries = [] := by
  cases entries with
  | nil => rfl
  | cons entry rest =>
    have impossible := none_held entry.1
    rw [get?_eq_none_iff] at impossible
    exact absurd (by simp [keys]) impossible

theorem get?_ofEntries_const_iff (edges : List EdgeKey) (budget : String) (edge : EdgeKey) :
    get? (ofEntries (edges.map fun e => (e, budget))) edge =
      if edge ∈ edges then some budget else none := by
  rw [ofEntries, update, List.foldl_map]
  exact get?_setAll edges [] budget edge

theorem selectedEdges_nodup : (keys (selectedEdges d adjacency cyclicCount component)).Nodup := by
  unfold selectedEdges
  dsimp only
  split
  · split
    · exact keys_ofEntries_nodup _
    · exact List.nodup_nil
  · exact bindings_nodup _ _ List.nodup_nil

theorem get?_selectedEdges (edge : EdgeKey) :
    get? (selectedEdges d adjacency cyclicCount component) edge =
      if edge ∈ internalEdges component adjacency then
        chosenBudget d adjacency cyclicCount component edge
      else none := by
  have bound := @get?_bindings component (internalEdges component adjacency)
    d.loopBudgetBindings []
  simp only [get?_nil, Option.or_none] at bound
  unfold selectedEdges chosenBudget
  dsimp only
  by_cases explicit : ∃ other ∈ internalEdges component adjacency,
      (explicitBudget d component other).isSome
  · rw [if_pos explicit]
    obtain ⟨other, inside, found⟩ := explicit
    split
    · rename_i empty _
      have absent := bound other
      rw [empty, if_pos inside] at absent
      unfold explicitBudget at found
      rw [← absent] at found
      cases found
    · rw [bound]
      rfl
  · rw [if_neg explicit]
    have empty : d.loopBudgetBindings.foldl (fun acc entry =>
        selectBinding component (internalEdges component adjacency) acc entry.1 entry.2) [] =
        [] := by
      apply eq_nil_of_get?_none
      intro other
      rw [bound]
      split
      · rename_i inside
        by_contra found
        exact explicit ⟨other, inside, Option.isSome_iff_ne_none.mpr found⟩
      · rfl
    rw [empty]
    split
    · rename_i budget limit _ budgets
      rw [budgets]
      dsimp only
      by_cases one : cyclicCount = 1
      · rw [if_pos one, get?_ofEntries_const_iff]
        by_cases inside : edge ∈ internalEdges component adjacency <;> simp [inside, one]
      · simp [one]
    · rename_i other
      rw [get?_nil]
      split
      · split
        · rename_i budget limit budgets
          exact absurd budgets (other budget limit rfl)
        · rfl
      · rfl

theorem remaining_edge {selected : Dict EdgeKey String} {a b : String} :
    (unboundEdges adjacency component selected).Edge a b ↔
      (a, b) ∈ internalEdges component adjacency ∧ get? selected (a, b) = none := by
  rw [mem_internalEdges]
  unfold Adjacency.Edge Adjacency.targets unboundEdges
  rw [get?_comprehension]
  by_cases inside : a ∈ component
  · simp [inside, Adjacency.targets, and_assoc, and_left_comm]
  · simp [inside]

end

variable {adjacency : Adjacency}

theorem isCyclic_iff {part : List String} :
    isCyclic adjacency part = true ↔ Cyclic adjacency.Edge part := by
  unfold isCyclic Cyclic Adjacency.Edge
  simp

theorem acyclic_iff_parts {nodes : List String} (grounded : ∀ a b, adjacency.Edge a b → a ∈ nodes) :
    Acyclic adjacency.Edge ↔
      (stronglyConnectedComponents nodes adjacency).any (isCyclic adjacency) = false := by
  rw [(stronglyConnectedComponents_spec nodes adjacency).acyclic_iff grounded, List.any_eq_false]
  simp only [isCyclic_iff]

section
variable {d : WorkflowDefinition} {adjacency : Adjacency} {cyclicCount : Nat}
  {component : List String}

def bindSelected (d : WorkflowDefinition) (adjacency : Adjacency) (component : List String)
    (selected : Dict EdgeKey String) : Checked (List (EdgeKey × String)) := do
  if selected = [] then
    definitionErrorText "unbudgeted_cycle"
      ("Cyclic SCC " ++ join "," (sorted component) ++
        " requires explicit feedback-edge budget bindings")
  match selected.find? fun entry => (get? d.loopBudgets entry.2).isNone with
  | some entry =>
    definitionErrorText "unknown_loop_budget_binding"
      ("Cyclic SCC " ++ join "," (sorted component) ++ " references unknown budget " ++ entry.2)
  | none => pure ()
  let remaining := unboundEdges adjacency component selected
  if (stronglyConnectedComponents component remaining).any (isCyclic remaining) then
    definitionErrorText "unbudgeted_cycle"
      ("Cyclic SCC " ++ join "," (sorted component) ++
        " contains a cycle without a bound feedback edge")
  pure (selected.insertionSort fun a b => edgeKeyLe a b)

theorem bindComponent_eq : bindComponent d adjacency cyclicCount component =
    bindSelected d adjacency component (selectedEdges d adjacency cyclicCount component) := rfl

/-- A component is bound when some edge of it is chosen, every chosen budget is declared, and the
other edges hold no cycle. -/
theorem bindComponent_ok :
    (∃ bindings, bindComponent d adjacency cyclicCount component = .ok bindings) ↔
      selectedEdges d adjacency cyclicCount component ≠ [] ∧
      (∀ edge ∈ internalEdges component adjacency, ∀ budget,
        chosenBudget d adjacency cyclicCount component edge = some budget →
          (get? d.loopBudgets budget).isSome) ∧
      Acyclic (unboundEdges adjacency component
        (selectedEdges d adjacency cyclicCount component)).Edge := by
  have grounded : ∀ a b, (unboundEdges adjacency component
      (selectedEdges d adjacency cyclicCount component)).Edge a b → a ∈ component := by
    intro a b step
    exact (mem_internalEdges.mp ((remaining_edge ..).mp step).1).1
  have declared : ((selectedEdges d adjacency cyclicCount component).find? fun entry =>
        (get? d.loopBudgets entry.2).isNone) = none ↔
      ∀ edge ∈ internalEdges component adjacency, ∀ budget,
        chosenBudget d adjacency cyclicCount component edge = some budget →
          (get? d.loopBudgets budget).isSome := by
    rw [List.find?_eq_none]
    constructor
    · intro all edge inside budget chosen
      have held := get?_selectedEdges d adjacency cyclicCount component edge
      rw [if_pos inside, chosen] at held
      have known := all _ (mem_of_get?_eq_some held)
      simpa [Option.isSome_iff_ne_none] using known
    · intro all entry inside
      have held := get?_eq_some_of_mem (selectedEdges_nodup d adjacency cyclicCount component)
        (k := entry.1) (v := entry.2) inside
      rw [get?_selectedEdges] at held
      split at held
      · rename_i internal
        have known := all entry.1 internal entry.2 held
        simpa [Option.isSome_iff_ne_none] using known
      · cases held
  rw [acyclic_iff_parts grounded, ← declared]
  rw [bindComponent_eq]
  generalize selectedEdges d adjacency cyclicCount component = selected
  unfold bindSelected
  by_cases empty : selected = []
  · simp [empty, definitionErrorText, definitionError, bind, Except.bind]
  · rw [if_neg empty]
    cases selected.find? fun entry => (get? d.loopBudgets entry.2).isNone with
    | some entry => simp [definitionErrorText, definitionError, bind, Except.bind]
    | none =>
      by_cases clear : (stronglyConnectedComponents component
          (unboundEdges adjacency component selected)).any
          (isCyclic (unboundEdges adjacency component selected)) = true
      · simp [clear, definitionErrorText, definitionError, bind, Except.bind]
      · simp [clear, empty, pure, Except.pure]

end

/-! The whole graph. -/

section
variable (d : WorkflowDefinition) (adjacency : Adjacency)

def cyclicComponents : List (List String) :=
  (stronglyConnectedComponents (nodeIds d) adjacency).filter (isCyclic adjacency)

/-- The edge lies on a cycle, and a binding or the default gives it the budget. -/
def Bound (edge : EdgeKey) (budget : String) :
    Prop :=
  ∃ part ∈ cyclicComponents d adjacency, edge ∈ internalEdges part adjacency ∧
    chosenBudget d adjacency (cyclicComponents d adjacency).length part edge = some budget

def Unbound (a b : String) : Prop :=
  adjacency.Edge a b ∧ ∀ budget, ¬ Bound d adjacency (a, b) budget

end

section
variable {d : WorkflowDefinition} {adjacency : Adjacency}

theorem cycleBindings_ok :
    (∃ bindings, cycleBindings d adjacency = .ok bindings) ↔
      ∀ part ∈ cyclicComponents d adjacency, ∃ bindings,
        bindComponent d adjacency (cyclicComponents d adjacency).length part = .ok bindings := by
  constructor
  · intro done part inside
    obtain ⟨bindings, done⟩ := done
    obtain ⟨found, each, _⟩ := Checks.bind_eq_ok.mp done
    obtain ⟨bindings, _, here⟩ := Checks.round_of_mapM each inside
    exact ⟨bindings, here⟩
  · intro each
    obtain ⟨found, all⟩ := Checks.exists_mapM each
    exact ⟨found.flatten, Checks.bind_eq_ok.mpr ⟨found, all, rfl⟩⟩

variable {part : List String}

theorem unbound_iff (inside : part ∈ cyclicComponents d adjacency) {a b : String}
    (internal : (a, b) ∈ internalEdges part adjacency) :
    Unbound d adjacency a b ↔
      get? (selectedEdges d adjacency (cyclicComponents d adjacency).length part) (a, b) = none := by
  have components := stronglyConnectedComponents_spec (nodeIds d) adjacency
  rw [get?_selectedEdges, if_pos internal]
  constructor
  · intro unbound
    cases chosen : chosenBudget d adjacency (cyclicComponents d adjacency).length part (a, b) with
    | none => rfl
    | some budget => exact absurd ⟨part, inside, internal, chosen⟩ (unbound.2 budget)
  · intro absent
    refine ⟨(mem_internalEdges.mp internal).2.2, ?_⟩
    intro budget bound
    obtain ⟨part', inside', internal', chosen⟩ := bound
    have same := components.unique (List.mem_of_mem_filter inside)
      (List.mem_of_mem_filter inside') (mem_internalEdges.mp internal).1
      (mem_internalEdges.mp internal').1
    subst same
    rw [absent] at chosen
    cases chosen

theorem cycle_in_component (grounded : ∀ a b, adjacency.Edge a b → a ∈ nodeIds d) {a : String}
    (cycle : TransGen (Unbound d adjacency) a a) :
    ∃ part ∈ cyclicComponents d adjacency,
      TransGen (unboundEdges adjacency part
        (selectedEdges d adjacency (cyclicComponents d adjacency).length part)).Edge a a := by
  have components := stronglyConnectedComponents_spec (nodeIds d) adjacency
  have sub : ∀ x y, Unbound d adjacency x y → adjacency.Edge x y := fun x y step => step.1
  have whole : TransGen adjacency.Edge a a := TransGen.mono sub _ _ cycle
  obtain ⟨b, step, _⟩ := TransGen.head'_iff.mp whole
  obtain ⟨part, found, here⟩ := (components.covers a).mpr ⟨a, grounded a b step, .refl⟩
  have inside : part ∈ cyclicComponents d adjacency :=
    List.mem_filter.mpr ⟨found, isCyclic_iff.mpr (components.cyclic_of_cycle found here whole)⟩
  refine ⟨part, inside, TransGen.mono ?_ _ _ (cycle_in_class sub cycle)⟩
  intro x y stays
  obtain ⟨unbound, first, second⟩ := stays
  have internal : (x, y) ∈ internalEdges part adjacency :=
    mem_internalEdges.mpr ⟨(components.classes part found a here x).mpr first,
      (components.classes part found a here y).mpr second, unbound.1⟩
  exact (remaining_edge ..).mpr ⟨internal, (unbound_iff inside internal).mp unbound⟩

theorem remaining_unbound (inside : part ∈ cyclicComponents d adjacency) {a b : String}
    (step : (unboundEdges adjacency part (selectedEdges d adjacency (cyclicComponents d
      adjacency).length part)).Edge a b) : Unbound d adjacency a b := by
  obtain ⟨internal, absent⟩ := (remaining_edge ..).mp step
  exact (unbound_iff inside internal).mpr absent

theorem selected_of_acyclic (inside : part ∈ cyclicComponents d adjacency)
    (acyclic : Acyclic (Unbound d adjacency)) :
    selectedEdges d adjacency (cyclicComponents d adjacency).length part ≠ [] := by
  have components := stronglyConnectedComponents_spec (nodeIds d) adjacency
  intro empty
  have found := List.mem_of_mem_filter inside
  obtain ⟨a, here, cycle⟩ := components.cycle_of_cyclic found
    (isCyclic_iff.mp (List.of_mem_filter inside))
  refine acyclic a (TransGen.mono ?_ _ _ (cycle_in_class (fun _ _ step => step) cycle))
  intro x y stays
  obtain ⟨step, first, second⟩ := stays
  have internal : (x, y) ∈ internalEdges part adjacency :=
    mem_internalEdges.mpr ⟨(components.classes part found a here x).mpr first,
      (components.classes part found a here y).mpr second, step⟩
  refine (unbound_iff inside internal).mpr ?_
  rw [empty]
  rfl

theorem cycleBindings_iff (grounded : ∀ a b, adjacency.Edge a b → a ∈ nodeIds d) :
    (∃ bindings, cycleBindings d adjacency = .ok bindings) ↔
      (∀ edge budget, Bound d adjacency edge budget → (get? d.loopBudgets budget).isSome) ∧
        Acyclic (Unbound d adjacency) := by
  rw [cycleBindings_ok]
  simp only [bindComponent_ok]
  constructor
  · intro all
    constructor
    · intro edge budget bound
      obtain ⟨part, inside, internal, chosen⟩ := bound
      exact (all part inside).2.1 edge internal budget chosen
    · intro a cycle
      obtain ⟨part, inside, stays⟩ := cycle_in_component grounded cycle
      exact (all part inside).2.2 a stays
  · intro both part inside
    obtain ⟨declared, acyclic⟩ := both
    refine ⟨selected_of_acyclic inside acyclic, ?_, ?_⟩
    · exact fun edge internal budget chosen => declared edge budget ⟨part, inside, internal, chosen⟩
    · intro a cycle
      exact acyclic a (TransGen.mono (fun _ _ step => remaining_unbound inside step) _ _ cycle)

end

/-! The graph of a definition. -/

section
variable {d : WorkflowDefinition} {keepEnd : Bool} {a b : String}

theorem adjacencyOf_edge : (adjacencyOf d keepEnd).Edge a b ↔ a ∈ nodeIds d ∧
    ((∃ edge ∈ d.edges, a ∈ edge.sources ∧ edge.target = b ∧ (keepEnd = true ∨ b ≠ endNode)) ∨
      ∃ edge ∈ d.conditionalEdges, edge.source = a ∧ b ∈ edge.routes.map Prod.snd ∧
        b ≠ endNode) := by
  unfold Adjacency.Edge Adjacency.targets adjacencyOf
  rw [get?_comprehension]
  by_cases inside : a ∈ nodeIds d
  · simp [inside, outgoingTargets, routeTargets, and_assoc]
    apply or_congr_left
    constructor
    · intro both
      obtain ⟨⟨edge, held, source, target⟩, allowed⟩ := both
      exact ⟨edge, held, source, target, allowed⟩
    · intro found
      obtain ⟨edge, held, source, target, allowed⟩ := found
      exact ⟨⟨edge, held, source, target⟩, allowed⟩
  · simp [inside]

theorem checkEdges_targets {seen edges : List Edge} (checked : checkEdges d seen edges = .ok ()) :
    ∀ edge ∈ edges, edge.target = endNode ∨ edge.target ∈ nodeIds d := by
  induction edges generalizing seen with
  | nil => exact nofun
  | cons edge rest ih =>
    rw [checkEdges] at checked
    obtain ⟨⟨⟩, here, later⟩ := Checks.bind_eq_ok.mp checked
    refine List.forall_mem_cons.mpr ⟨?_, ih later⟩
    by_contra astray
    rw [not_or] at astray
    unfold checkEdge at here
    dsimp only at here
    split at here
    · cases here
    · rw [if_pos (Or.inr astray)] at here
      cases here

theorem checkConditionals_targets {seen edges : List ConditionalEdge}
    (checked : checkConditionals d seen edges = .ok ()) :
    ∀ edge ∈ edges, ∀ target ∈ edge.routes.map Prod.snd,
      target = endNode ∨ target ∈ nodeIds d := by
  induction edges generalizing seen with
  | nil => exact nofun
  | cons edge rest ih =>
    rw [checkConditionals] at checked
    obtain ⟨⟨⟩, here, later⟩ := Checks.bind_eq_ok.mp checked
    refine List.forall_mem_cons.mpr ⟨?_, ih later⟩
    intro target inside
    by_contra astray
    rw [not_or] at astray
    have missing : (edge.routes.map Prod.snd).filter (fun target =>
        target ≠ endNode ∧ target ∉ nodeIds d) ≠ [] := by
      apply List.ne_nil_of_mem (a := target)
      exact List.mem_filter.mpr ⟨inside, decide_eq_true astray⟩
    unfold checkConditional at here
    dsimp only at here
    rw [if_pos missing] at here
    split at here
    · cases here
    · split at here
      · cases here
      · split at here <;> cases here

theorem component_of_iff (edges : checkEdges d [] d.edges = .ok ())
    (conditionals : checkConditionals d [] d.conditionalEdges = .ok ()) (v : String) :
    (∃ part ∈ stronglyConnectedComponents (nodeIds d) (adjacencyOf d keepEnd), v ∈ part) ↔
      v ∈ nodeIds d ∨ v = endNode ∧ ∃ node, (adjacencyOf d keepEnd).Edge node endNode := by
  rw [(stronglyConnectedComponents_spec _ _).covers]
  constructor
  · intro found
    obtain ⟨a, inside, path⟩ := found
    rcases ReflTransGen.cases_tail path with same | last
    · exact Or.inl (same ▸ inside)
    · obtain ⟨b, _, step⟩ := last
      have target : v = endNode ∨ v ∈ nodeIds d := by
        rcases (adjacencyOf_edge.mp step).2 with normal | conditional
        · obtain ⟨edge, held, _, rfl, _⟩ := normal
          exact checkEdges_targets edges edge held
        · obtain ⟨edge, held, _, among, _⟩ := conditional
          exact checkConditionals_targets conditionals edge held v among
      rcases target with rfl | node
      · exact Or.inr ⟨rfl, b, step⟩
      · exact Or.inl node
  · intro either
    rcases either with node | ending
    · exact ⟨v, node, .refl⟩
    · obtain ⟨rfl, node, step⟩ := ending
      exact ⟨node, (adjacencyOf_edge.mp step).1, .single step⟩

end

/-- The components are the classes of mutual reachability, and the cycle bindings are resolved
exactly when every chosen budget is declared and no cycle is without a bound edge. -/
theorem cycle_bindings_resolve (d : WorkflowDefinition) (keepEnd : Bool)
    (edges : checkEdges d [] d.edges = .ok ())
    (conditionals : checkConditionals d [] d.conditionalEdges = .ok ()) :
    (∀ nodes adjacency,
      Components adjacency.Edge nodes (stronglyConnectedComponents nodes adjacency)) ∧
    (∀ v, (∃ part ∈ stronglyConnectedComponents (nodeIds d) (adjacencyOf d keepEnd), v ∈ part) ↔
      v ∈ nodeIds d ∨ v = endNode ∧ ∃ node, (adjacencyOf d keepEnd).Edge node endNode) ∧
    ((∃ bindings, cycleBindings d (adjacencyOf d keepEnd) = .ok bindings) ↔
      (∀ edge budget, Bound d (adjacencyOf d keepEnd) edge budget →
        (get? d.loopBudgets budget).isSome) ∧
      Acyclic (Unbound d (adjacencyOf d keepEnd))) :=
  ⟨stronglyConnectedComponents_spec, component_of_iff edges conditionals,
    cycleBindings_iff fun _ _ step => (adjacencyOf_edge.mp step).1⟩

def drafting : WorkflowDefinition where
  name := "drafting"
  version := "1"
  stateSchemaVersion := 1
  entryNode := "draft"
  nodes := [⟨{ nodeId := "draft" }, by decide⟩, ⟨{ nodeId := "review" }, by decide⟩]
  channels := []
  recursionLimit := 11
  maxSupersteps := 10
  edges := [⟨⟨["draft"], "review"⟩, by decide⟩]
  conditionalEdges := [⟨⟨"review", [("again", "draft"), ("done", endNode)], some "pure"⟩,
    by decide, by decide⟩]
  loopBudgets := [("rounds", 3)]
  loopBudgetBindings := [("review -> draft", "rounds")]

theorem drafting_resolves :
    (∀ edge budget, Bound drafting (adjacencyOf drafting true) edge budget →
      (get? drafting.loopBudgets budget).isSome) ∧
    Acyclic (Unbound drafting (adjacencyOf drafting true)) := by
  have edges : checkEdges drafting [] drafting.edges = .ok () := by decide +kernel
  have conditionals : checkConditionals drafting [] drafting.conditionalEdges = .ok () := by
    decide +kernel
  have bound : cycleBindings drafting (adjacencyOf drafting true) =
      .ok [(("review", "draft"), "rounds")] := by decide +kernel
  exact (cycle_bindings_resolve drafting true edges conditionals).2.2.mp ⟨_, bound⟩

end Workflow
