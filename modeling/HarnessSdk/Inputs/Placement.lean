import HarnessSdk.Inputs.Resolution
import HarnessSdk.Library.FileTree

/-! Where the bindings of a frozen manifest are placed, and the files written there. -/
namespace Inputs
open PyDict PyText Checks Contracts Workflow
open Network (TaskRef ResolutionProblem ResourceIdentity ResolvedInputBinding)

/-- How a binding's source becomes a place in the consumer's namespace. -/
structure TargetRules where
  «namespace» : String
  portPrefixes : Dict String String := []
  preserveSourceNamespace : Bool := false
  caseInsensitive : Bool := false
  nonBlank : strip «namespace» ≠ "" := by decide

def TargetRules.targetFor (rules : TargetRules) (binding : ResolvedInputBinding) :
    Except Message ResourceIdentity :=
  let before := (get? rules.portPrefixes binding.inputPort).getD ""
  let parts := (if before ≠ "" then [before] else []) ++
    (if rules.preserveSourceNamespace then [binding.sourceIdentity.namespace] else []) ++
    [binding.sourceIdentity.path]
  resourceIdentity rules.namespace (join "/" parts)

structure MaterialisationEntry where
  target : ResourceIdentity
  contentHash : String
  artifactIds : List String
  bindingIds : List String
  inputPorts : List String
deriving DecidableEq

structure MaterialisationPlan where
  consumerTaskRef : TaskRef
  entries : List MaterialisationEntry := []
  problems : List ResolutionProblem := []
deriving DecidableEq

abbrev Aimed := ResourceIdentity × ResolvedInputBinding

def escapeProblem (printable : Char → Bool) (aimed : Aimed) : ResolutionProblem :=
  { kind := .targetPathInvalid
    detail := render printable [.text ("binding " ++ aimed.2.bindingId ++ " would be placed at "),
      .repr aimed.1.path, .text ", which leaves the consumer namespace"]
    inputPort := some aimed.2.inputPort
    inputPorts := [aimed.2.inputPort]
    requirementIds := [aimed.2.bound.requirementId]
    candidates := [aimed.2.bound.artifactId] }

def sortedSet (items : List String) : List String := sorted (fromkeys items)

section
variable (platform : Platform) (printable : Char → Bool)

/-- The place a group is given: where the case is folded the folded spelling is the canonical
one. -/
def spelled (rules : TargetRules) (target : ResourceIdentity) : Except Message ResourceIdentity :=
  if rules.caseInsensitive then
    resourceIdentity target.namespace (platform.casefold target.path)
  else .ok target

/-- What becomes of the bindings with one key: an entry, or a conflict of contents. -/
def settleGroup (rules : TargetRules) (key : String × String) (members : List Aimed) :
    Except Message (Except ResolutionProblem MaterialisationEntry) :=
  match members with
  | [] => .error [.text "a group is never empty"]
  | (target, first) :: _ =>
    let bindings := members.map (·.2)
    let hashes := fromkeys (bindings.map (·.bound.contentHash))
    if 1 < hashes.length then
      .ok (.error {
        kind := .targetPathConflict
        detail := render printable [.text s!"{hashes.length} different contents would occupy ",
          .repr key.2, .text " in ", .repr rules.namespace,
          .text "; choose, convert or synthesise one new artifact and verify it again"]
        inputPorts := sortedSet (bindings.map (·.inputPort))
        requirementIds := sortedSet (bindings.map (·.bound.requirementId))
        candidates := sortedSet (bindings.map (·.bound.artifactId)) })
    else do
      let target ← spelled platform rules target
      .ok (.ok {
        target
        contentHash := first.bound.contentHash
        artifactIds := sortedSet (bindings.map (·.bound.artifactId))
        bindingIds := sorted (bindings.map (·.bindingId))
        inputPorts := sortedSet (bindings.map (·.inputPort)) })

/-- `materialise_plan`: two contents are never merged into one place. -/
def materialisePlan (manifest : InputManifest) (rules : TargetRules) :
    Except Message MaterialisationPlan := do
  require (manifest.isFrozen = true)
    [.text "a materialisation plan needs every input resolved to an exact identity"]
  let aimed ← manifest.bindings.mapM fun binding =>
    (rules.targetFor binding).map fun target => (target, binding)
  let grouped := group (fun one : Aimed => platform.collationKey rules.caseInsensitive one.1)
    (aimed.filter fun one => !isEscaping one.1)
  let settled ← (sortedByKeys (fun entry => [entry.1.1, entry.1.2]) grouped).mapM fun entry =>
    settleGroup platform printable rules entry.1 entry.2
  let problems := (aimed.filter fun one => isEscaping one.1).map (escapeProblem printable) ++
    settled.filterMap fun one => match one with
      | .error problem => some problem
      | .ok _ => none
  .ok {
    consumerTaskRef := manifest.consumerTaskRef
    entries := settled.filterMap Except.toOption
    problems := sortedByKeys (fun problem => [problem.kind.text, problem.detail]) problems }

end

inductive WriteRefusal
  | readOnly
  | blank
  | escapes (relative : String)
  | noBytes (path : String)
  | unnameable (path : String)
  | inTheWay (obstacle : FileTree.Obstacle (List Char))

abbrev Files (β : Type) := FileTree.Tree (List Char) β

section
variable {β : Type} (platform : Platform) (caseInsensitive : Bool)

/-- `Workspace.resolve` in a tree without links: the names from the root to the file. -/
def resolvePath (relative : String) : Except WriteRefusal (List (List Char)) := do
  require (strip relative ≠ "") .blank
  require (posixRoot relative.toList = [] ∧ ['.', '.'] ∉ posixParts relative.toList)
    (.escapes relative)
  require (∀ name ∈ posixParts relative.toList, platform.admits name = true) (.unnameable relative)
  .ok (platform.names caseInsensitive relative)

def writeBytes (writable : Bool) (files : Files β) (relative : String) (data : β) :
    Except WriteRefusal (Files β) := do
  require (writable = true) .readOnly
  let path ← resolvePath platform caseInsensitive relative
  (FileTree.write files path data).mapError .inTheWay

/-- The loop of `Workspace.materialise_manifest`. -/
def writeEntries (writable : Bool) (blobs : Dict String β) :
    Files β → List MaterialisationEntry → Except WriteRefusal (Files β)
  | files, [] => .ok files
  | files, entry :: rest =>
    match get? blobs entry.target.path with
    | none => .error (.noBytes entry.target.path)
    | some data => do
      let files ← writeBytes platform caseInsensitive writable files entry.target.path data
      writeEntries writable blobs files rest

/-- `Workspace.materialise_manifest`: one file for each entry, with the bytes that were verified. -/
def materialiseManifest (writable : Bool) (entries : List MaterialisationEntry)
    (blobs : Dict String β) (files : Files β) : Except WriteRefusal (List String × Files β) := do
  require (writable = true) .readOnly
  let files ← writeEntries platform caseInsensitive writable blobs files entries
  .ok (sorted (entries.map (·.target.path)), files)

end

end Inputs
