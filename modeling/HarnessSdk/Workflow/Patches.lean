import HarnessSdk.Workflow.Definition

/-! State patches: what a node may write, how the patches of one superstep are merged, and how
the merged patch is reduced into the state. -/
namespace Workflow
open PyDict PyText

def Json.hasType : JsonType → Json → Bool
  | .json, _ => true
  | .string, .str _ => true
  | .integer, .int _ => true
  | .number, .int _ => true
  | .number, .float _ => true
  | .boolean, .bool _ => true
  | .object, .obj _ => true
  | .array, .arr _ => true
  | _, _ => false

abbrev Engine := Except EngineError

def invalidPatch {α : Type} (code message : String) : Engine α :=
  .error (.invalidStatePatch code [.text message])

def mergeConflict {α : Type} (code message : String) : Engine α :=
  .error (.stateMergeConflict code [.text message])

def stableItem (idKey : String) : Json → Option (Json × Json)
  | .obj fields => (get? fields idKey).map fun id => (id, .obj fields)
  | _ => none

/-- A stable item id, a text or an integer, as a conflict prints it. -/
def itemIdFragment : Json → Option Fragment
  | .str s => some (.repr s)
  | .int n => some (.text (toString n))
  | _ => none

namespace CompiledWorkflow
variable (w : CompiledWorkflow)

def reducerOf (spec : ChannelSpec) : ReducerKind :=
  (ReducerKind.parse spec.reducer).getD .singleWriter

def validateWrite (nodeId channel : String) (value : Json) : Engine Unit :=
  match get? w.definition.channels channel with
  | none => .error (.keyError channel)
  | some spec =>
    if nodeId ∉ spec.allowedWriters then
      invalidPatch "unauthorized_channel_writer"
        s!"Node {nodeId} may not write channel {channel}"
    else
      let valueType := (JsonType.parse spec.valueType).getD .json
      if value.hasType valueType then .ok ()
      else invalidPatch "channel_type_mismatch" s!"Channel {channel} requires {valueType.value}"

def validatePatch (nodeId : String) (patch : StatePatch) : Engine Unit := do
  if (w.node nodeId).isNone then
    invalidPatch "unknown_writer" s!"Unknown patch writer: {nodeId}"
  let unknown := (keys patch).filter fun channel => (get? w.definition.channels channel).isNone
  if unknown ≠ [] then
    invalidPatch "unknown_channel"
      ("Patch writes unknown channels: " ++ join ", " (sorted unknown))
  patch.forM fun entry => w.validateWrite nodeId entry.1 entry.2

abbrev Writes := List (String × Json)

def groupWrites : List (String × StatePatch) → Dict String Writes → Engine (Dict String Writes)
  | [], grouped => .ok grouped
  | (writer, patch) :: rest, grouped => do
    w.validatePatch writer patch
    let grouped := patch.foldl (fun acc entry =>
      set acc entry.1 ((get? acc entry.1).getD [] ++ [(writer, entry.2)])) grouped
    groupWrites rest grouped

def mergeDisjoint (channel : String) : Writes → Dict String Json → Engine (Dict String Json)
  | [], result => .ok result
  | (_, .obj fields) :: rest, result => do
    let overlap := (keys result).filter (· ∈ keys fields)
    if overlap ≠ [] then
      mergeConflict "dict_key_conflict"
        (s!"Parallel writes conflict on {channel}: " ++ join ", " (sorted overlap))
    mergeDisjoint channel rest (update result fields)
  | _ :: _, _ => .error (.keyError channel)

def mergeItems (channel idKey writer : String) :
    List Json → Dict String Json → Engine (Dict String Json)
  | [], items => .ok items
  | item :: rest, items =>
    match stableItem idKey item with
    | none =>
      mergeConflict "missing_stable_item_id"
        s!"Channel {channel} item from {writer} lacks {idKey}"
    | some (id, item) =>
      match itemIdFragment id, get? items (canonicalJson id) with
      | none, _ =>
        mergeConflict "invalid_stable_item_id"
          s!"Channel {channel} item id must be string or integer"
      | some printed, some old =>
        if old.sameText item then
          mergeItems channel idKey writer rest (set items (canonicalJson id) item)
        else
          .error (.stateMergeConflict "stable_item_conflict"
            [.text s!"Channel {channel} has conflicting item id ", printed])
      | some _, none => mergeItems channel idKey writer rest (set items (canonicalJson id) item)

def mergeStable (channel idKey : String) : Writes → Dict String Json → Engine (Dict String Json)
  | [], items => .ok items
  | (writer, .arr values) :: rest, items => do
    let items ← mergeItems channel idKey writer values items
    mergeStable channel idKey rest items
  | _ :: _, _ => .error (.keyError channel)

def mergeChannel (channel : String) (spec : ChannelSpec) (writes : Writes) : Engine Json :=
  match reducerOf spec with
  | .singleWriter =>
    match writes with
    | [(_, value)] => .ok value
    | _ =>
      mergeConflict "single_writer_conflict" s!"Parallel writes conflict on channel {channel}"
  | .dictDisjoint => return .obj (← mergeDisjoint channel writes [])
  | .stableList => do
    let items ← mergeStable channel spec.itemIdKey writes []
    return .arr ((sortedBy Prod.fst items).map Prod.snd)

def mergePatches (writes : List (String × StatePatch)) : Engine StatePatch := do
  let grouped ← w.groupWrites writes []
  grouped.mapM fun entry =>
    match get? w.definition.channels entry.1 with
    | none => .error (.keyError entry.1)
    | some spec => return (entry.1, ← mergeChannel entry.1 spec entry.2)

def reduceFields (channel : String) :
    List (String × Json) → Dict String Json → Engine (Dict String Json)
  | [], merged => .ok merged
  | (key, item) :: rest, merged =>
    match get? merged key with
    | some old =>
      if old.sameText item then reduceFields channel rest (set merged key item)
      else
        mergeConflict "dict_key_conflict"
          s!"State and frontier writes conflict on {channel}.{key}"
    | none => reduceFields channel rest (set merged key item)

def itemPositions (channel idKey : String) :
    List Json → Dict String Json → Engine (Dict String Json)
  | [], positions => .ok positions
  | item :: rest, positions =>
    match stableItem idKey item with
    | none => mergeConflict "missing_stable_item_id" s!"Channel {channel} has an invalid old item"
    | some (id, item) => itemPositions channel idKey rest (set positions (canonicalJson id) item)

def reduceItems (channel idKey : String) :
    List Json → Dict String Json → List Json → Engine (List Json)
  | [], _, result => .ok result
  | item :: rest, positions, result =>
    match stableItem idKey item with
    | none => mergeConflict "missing_stable_item_id" s!"Channel {channel} has an invalid new item"
    | some (id, item) =>
      match get? positions (canonicalJson id) with
      | some old =>
        if old.sameText item then reduceItems channel idKey rest positions result
        else mergeConflict "stable_item_conflict" s!"Channel {channel} has a conflicting item"
      | none =>
        reduceItems channel idKey rest (set positions (canonicalJson id) item) (result ++ [item])

def reduceChannel (channel : String) (spec : ChannelSpec) (old : Option Json) (value : Json) :
    Engine Json :=
  match reducerOf spec, old with
  | .singleWriter, _ => .ok value
  | _, none => .ok value
  | .dictDisjoint, some (.obj fields) =>
    match value with
    | .obj writes => return .obj (← reduceFields channel writes fields)
    | _ => mergeConflict "reducer_state_type_mismatch" s!"Channel {channel} requires objects"
  | .dictDisjoint, some _ =>
    mergeConflict "reducer_state_type_mismatch" s!"Channel {channel} requires objects"
  | .stableList, some (.arr items) =>
    match value with
    | .arr writes => do
      let positions ← itemPositions channel spec.itemIdKey items []
      return .arr (← reduceItems channel spec.itemIdKey writes positions items)
    | _ => mergeConflict "reducer_state_type_mismatch" s!"Channel {channel} requires arrays"
  | .stableList, some _ =>
    mergeConflict "reducer_state_type_mismatch" s!"Channel {channel} requires arrays"

def reduceState : StatePatch → State → Engine State
  | [], state => .ok state
  | (channel, value) :: rest, state =>
    match get? w.definition.channels channel with
    | none => .error (.keyError channel)
    | some spec => do
      let value ← reduceChannel channel spec (get? state channel) value
      reduceState rest (set state channel value)

end CompiledWorkflow
end Workflow
