import HarnessSdk.Contracts.SemanticBase
import HarnessSdk.Network.Readiness

/-! Workspace paths and the places they name. -/
namespace Inputs
open PyDict PyText Checks Contracts
open Network (ResourceIdentity)

/-- The parts between slashes, without the empty ones and the dots. -/
def solidParts (cs : List Char) : List (List Char) :=
  (cs.splitOn '/').filter fun part => part ≠ [] ∧ part ≠ ['.']

/-- The root of `PurePosixPath(text)`: two leading slashes, and only two, are one of their own. -/
def posixRoot : List Char → List (List Char)
  | '/' :: '/' :: '/' :: _ => [['/']]
  | '/' :: '/' :: _ => [['/', '/']]
  | '/' :: _ => [['/']]
  | _ => []

def posixParts (cs : List Char) : List (List Char) := posixRoot cs ++ solidParts cs

def joinParts (parts : List (List Char)) : List Char := List.intercalate ['/'] parts

/-- `normalise_workspace_path`: one canonical form, where `..` stays for the resolver to refuse. -/
def normaliseWorkspacePath (path : String) : String :=
  let text := stripChars (path.toList.map fun c => if c = '\\' then '/' else c)
  String.ofList (joinParts ((posixParts text).filter (· ≠ ['/'])))

def resourceIdentity («namespace» path : String) : Except Message ResourceIdentity :=
  if strip «namespace» = "" then .error [.text "resource.namespace must be a non-blank string"]
  else if strip path = "" then .error [.text "resource.path must be a non-blank string"]
  else
    let normal := normaliseWorkspacePath path
    if normal = "" then .error [.text "resource.path normalises to nothing"]
    else .ok ⟨«namespace», normal⟩

variable {identity : ResourceIdentity}

theorem identity_namespace {«namespace» path : String}
    (made : resourceIdentity «namespace» path = .ok identity) :
    identity.namespace = «namespace» := by
  unfold resourceIdentity at made
  dsimp only at made
  split at made
  · cases made
  split at made
  · cases made
  split at made
  · cases made
  · cases made
    rfl

/-- `..` survives normalisation, so that it can be refused. -/
def isEscaping (identity : ResourceIdentity) : Bool :=
  ['.', '.'] ∈ identity.path.toList.splitOn '/'

/-- A file system: how `str.casefold` folds a character, and the names it can hold. A slash folds
to itself. -/
structure Platform where
  fold : Char → List Char
  admits : List Char → Bool
  slash : fold '/' = ['/']

namespace Platform
variable (platform : Platform)

def casefold (s : String) : String := String.ofList (s.toList.flatMap platform.fold)

def collationKey (caseInsensitive : Bool) (identity : ResourceIdentity) : String × String :=
  if caseInsensitive then (platform.casefold identity.namespace, platform.casefold identity.path)
  else (identity.namespace, identity.path)

/-- The names a path leads through, as the file system compares them. -/
def names (caseInsensitive : Bool) (path : String) : List (List Char) :=
  let parts := posixParts path.toList
  if caseInsensitive then parts.map (·.flatMap platform.fold) else parts

end Platform

structure Solid (part : List Char) : Prop where
  some : part ≠ []
  noDot : part ≠ ['.']
  noSlash : '/' ∉ part

theorem not_slash_of_mem_split {cs part : List Char} (inside : part ∈ cs.splitOn '/') :
    '/' ∉ part := by
  induction cs generalizing part with
  | nil =>
    rw [List.splitOn_nil, List.mem_singleton] at inside
    rw [inside]
    exact List.not_mem_nil
  | cons c rest ih =>
    rw [List.splitOn_cons_eq_if_modifyHead] at inside
    split at inside
    · rcases List.mem_cons.mp inside with rfl | later
      · exact List.not_mem_nil
      · exact ih later
    · case isFalse other =>
      cases split : rest.splitOn '/' with
      | nil => exact absurd split (List.splitOn_ne_nil _ _)
      | cons head tail =>
        rw [split] at ih
        rw [split, List.modifyHead_cons] at inside
        rcases List.mem_cons.mp inside with rfl | later
        · intro slash
          rcases List.mem_cons.mp slash with here | there
          · exact other (by simp [← here])
          · exact ih List.mem_cons_self there
        · exact ih (List.mem_cons_of_mem _ later)

theorem solid_of_mem {cs part : List Char} (inside : part ∈ solidParts cs) : Solid part := by
  simp only [solidParts, List.mem_filter, decide_eq_true_eq] at inside
  exact ⟨inside.2.1, inside.2.2, not_slash_of_mem_split inside.1⟩

variable {parts : List (List Char)}

theorem solidParts_join (solid : ∀ part ∈ parts, Solid part) :
    solidParts (joinParts parts) = parts := by
  cases parts with
  | nil => rfl
  | cons part rest =>
    rw [solidParts, joinParts,
      List.splitOn_intercalate '/' (fun part inside => (solid part inside).noSlash) (by simp),
      List.filter_eq_self]
    intro part inside
    exact decide_eq_true ⟨(solid part inside).some, (solid part inside).noDot⟩

theorem join_cons (part : List Char) (rest : List (List Char)) :
    ∃ tail, joinParts (part :: rest) = part ++ tail := by
  cases rest with
  | nil => exact ⟨[], by simp [joinParts]⟩
  | cons next rest => exact ⟨_, by rw [joinParts, List.intercalate_cons_cons, List.append_assoc]⟩

theorem posixRoot_join (solid : ∀ part ∈ parts, Solid part) : posixRoot (joinParts parts) = [] := by
  cases parts with
  | nil => rfl
  | cons part rest =>
    obtain ⟨tail, joined⟩ := join_cons part rest
    obtain ⟨some, _, noSlash⟩ := solid part List.mem_cons_self
    cases part with
    | nil => exact absurd rfl some
    | cons c cs =>
      have other : c ≠ '/' := fun here => noSlash (by simp [here])
      rw [joined, List.cons_append]
      unfold posixRoot
      split <;> simp_all

theorem posixRoot_cases (cs : List Char) :
    posixRoot cs = [] ∨ posixRoot cs = [['/']] ∨ posixRoot cs = [['/', '/']] := by
  unfold posixRoot
  split <;> simp

structure Canonical (path : String) : Prop where
  joined : path.toList = joinParts (posixParts path.toList)
  solid : ∀ part ∈ posixParts path.toList, Solid part
  some : posixParts path.toList ≠ []

theorem canonical_of_join {path : String} (solid : ∀ part ∈ parts, Solid part) (some : path ≠ "")
    (joined : path.toList = joinParts parts) : Canonical path := by
  have same : posixParts path.toList = parts := by
    rw [posixParts, joined, posixRoot_join solid, solidParts_join solid, List.nil_append]
  refine ⟨by rw [same, joined], by rwa [same], ?_⟩
  rw [same]
  rintro rfl
  refine some (String.toList_inj.mp ?_)
  rw [joined]
  rfl

theorem canonical_of_identity {«namespace» path : String}
    (made : resourceIdentity «namespace» path = .ok identity)
    (relative : posixRoot identity.path.toList = []) : Canonical identity.path := by
  unfold resourceIdentity at made
  split at made
  · cases made
  split at made
  · cases made
  dsimp only at made
  split at made
  · cases made
  case isFalse some =>
    cases made
    generalize stripped : stripChars (path.toList.map fun c => if c = '\\' then '/' else c) =
      text at some relative
    have spelled : (normaliseWorkspacePath path).toList =
        joinParts ((posixParts text).filter (· ≠ ['/'])) := by
      rw [normaliseWorkspacePath, String.toList_ofList, stripped]
    have kept : (solidParts text).filter (· ≠ ['/']) = solidParts text := by
      rw [List.filter_eq_self]
      intro part inside
      refine decide_eq_true ?_
      rintro rfl
      exact (solid_of_mem inside).noSlash List.mem_cons_self
    rw [posixParts, List.filter_append, kept] at spelled
    rcases posixRoot_cases text with none | one | two
    · rw [none] at spelled
      exact canonical_of_join (fun part inside => solid_of_mem inside) some spelled
    · rw [one] at spelled
      exact canonical_of_join (fun part inside => solid_of_mem inside) some spelled
    · obtain ⟨tail, joined⟩ := join_cons ['/', '/'] (solidParts text)
      rw [two] at spelled
      have rooted : (normaliseWorkspacePath path).toList = '/' :: '/' :: tail := by
        rw [spelled]
        exact joined
      rw [rooted] at relative
      cases tail with
      | nil => cases relative
      | cons c rest => by_cases slash : c = '/' <;> simp [posixRoot, slash] at relative

section
variable {platform : Platform} {caseInsensitive : Bool}

theorem names_ne_nil {path : String} (canonical : Canonical path) :
    platform.names caseInsensitive path ≠ [] := by
  have some := canonical.some
  unfold Platform.names
  split <;> simpa using some

theorem casefold_of_names {a b : String} (first : Canonical a) (second : Canonical b)
    (same : platform.names true a = platform.names true b) :
    platform.casefold a = platform.casefold b := by
  have folded : ∀ parts : List (List Char),
      (joinParts parts).flatMap platform.fold = joinParts (parts.map (·.flatMap platform.fold)) := by
    intro parts
    induction parts with
    | nil => rfl
    | cons part rest ih =>
      cases rest with
      | nil => simp [joinParts]
      | cons next rest =>
        rw [joinParts, List.map_cons] at ih
        simp only [joinParts, List.map_cons, List.intercalate_cons_cons, List.flatMap_append, ih,
          List.flatMap_singleton, platform.slash]
  simp only [Platform.names, if_true] at same
  rw [Platform.casefold, Platform.casefold, first.joined, second.joined, folded, folded, same]

theorem eq_of_names {a b : String} (first : Canonical a) (second : Canonical b)
    (same : platform.names false a = platform.names false b) : a = b := by
  simp only [Platform.names, Bool.false_eq_true, if_false] at same
  rw [← String.toList_inj, first.joined, second.joined, same]

end

end Inputs
