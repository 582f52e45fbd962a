import HarnessSdk.Graph.Changes
import HarnessSdk.Library.Cycles
import HarnessSdk.Library.Numerals

/-! The accepted artifacts of a task graph, merged by path: a later producer overrides an earlier
one on which it depends. -/
namespace Artifacts
open PyDict PyText
open Graph (TaskStatus)

structure Artifact where
  id : String
  path : String
  contentHash : String
deriving DecidableEq

structure Task where
  id : String
  dependencyIds : List String
  status : TaskStatus
  acceptedArtifacts : List String
deriving DecidableEq

structure UpstreamInput where
  taskId : String
  path : String
  contentHash : String
  artifactId : String
deriving DecidableEq

structure ArtifactConflict where
  message : String
deriving DecidableEq

abbrev TasksById := Dict String Task

abbrev Numbering := String → Int

/-- The number after the last dash, or zero. -/
def ordinalOf (decimal : Char → Option Nat) : Numbering := fun taskId =>
  if '-' ∈ taskId.toList then
    (pyInt decimal (String.ofList (taskId.toList.reverse.takeWhile (· ≠ '-')).reverse)).getD 0
  else 0

def visit (tasksById : TasksById) : Nat → String → List String → List String
  | 0, _, seen => seen
  | fuel + 1, current, seen =>
    match get? tasksById current with
    | none => seen
    | some task =>
      task.dependencyIds.foldl
        (fun seen dep => if dep ∈ seen then seen else visit tasksById fuel dep (seen ++ [dep])) seen

def dependents (members : TasksById) (current : String) : List String :=
  keys (members.filter fun entry => current ∈ entry.2.dependencyIds)

def indegree (members : TasksById) : Dict String Nat :=
  members.map fun entry => (entry.1, (entry.2.dependencyIds.filter (· ∈ keys members)).length)

section
variable (ordinal : Numbering)

def pick (ready : List String) : Option (String × List String) :=
  match ready.insertionSort fun a b => ordinal a ≤ ordinal b with
  | [] => none
  | current :: rest => some (current, rest)

/-- The members by their dependencies as far as Kahn's algorithm gets. -/
def placed (members : TasksById) : List String :=
  Kahn.run (dependents members) (pick ordinal) members.length (indegree members)
    ((keys members).filter fun id => Kahn.degree (indegree members) id = 0) []

def topological (tasks : List Task) : List Task :=
  let members := ofEntries (tasks.map fun task => (task.id, task))
  let order := (placed ordinal members).filterMap (get? members)
  if order.length ≠ members.length then
    order ++ ((members.map Prod.snd).filter (· ∉ order)).insertionSort
      fun s t => ordinal s.id ≤ ordinal t.id
  else order

def ancestors (taskId : String) (tasksById : TasksById) : List Task :=
  let seen := visit tasksById (tasksById.length + 1) taskId []
  topological ordinal ((seen.filterMap (get? tasksById)).filter (·.status ≠ .cancelled))

def accepted (artifactsByTask : Dict String (List Artifact)) (task : Task) : List Artifact :=
  ((get? artifactsByTask task.id).getD []).filter (·.id ∈ task.acceptedArtifacts)

def mergeArtifact (closure : Dict String (List String)) (task : Task)
    (inputs : Dict String UpstreamInput) (artifact : Artifact) :
    Except ArtifactConflict (Dict String UpstreamInput) := do
  match get? inputs artifact.path with
  | some existing =>
    if existing.contentHash ≠ artifact.contentHash ∧
        existing.taskId ∉ (get? closure task.id).getD [] then
      throw ⟨artifact.path ++ " is produced by both " ++ existing.taskId ++ " and " ++ task.id ++
        " (independent branches) with different content"⟩
  | none => pure ()
  return set inputs artifact.path ⟨task.id, artifact.path, artifact.contentHash, artifact.id⟩

def mergeAccepted (producers : List Task) (artifactsByTask : Dict String (List Artifact))
    (tasksById : TasksById) : Except ArtifactConflict (List UpstreamInput) := do
  let closure := ofEntries
    (producers.map fun task => (task.id, (ancestors ordinal task.id tasksById).map (·.id)))
  let inputs ← (topological ordinal producers).foldlM (fun inputs task =>
    (accepted artifactsByTask task).foldlM (mergeArtifact closure task) inputs) []
  return (sorted (keys inputs)).filterMap (get? inputs)

end

def Feeds (tasksById : TasksById) (a b : String) : Prop :=
  ∃ task, get? tasksById b = some task ∧ a ∈ task.dependencyIds

/-- A task set whose dependencies are known and run in no circle. -/
structure TaskSet where
  tasksById : TasksById
  distinct : (keys tasksById).Nodup
  named : ∀ id task, get? tasksById id = some task → task.id = id
  known : ∀ a b, Feeds tasksById a b → a ∈ keys tasksById
  once : ∀ id task, get? tasksById id = some task → task.dependencyIds.Nodup
  acyclic : Digraph.Acyclic (Feeds tasksById)

structure Producers (tasks : TaskSet) where
  list : List Task
  members : ∀ task ∈ list, get? tasks.tasksById task.id = some task

end Artifacts
