import HarnessSdk.Library.Checks
import HarnessSdk.Library.Dict

/-!
The derived index of one session: index generations, the sources of closed groups, and the chunks
and vectors that a group is materialised as, all under one commit.
-/
namespace SessionIndex
open Checks PyDict

def MAX_CHUNK_BYTES : Nat := 16384

inductive IndexError
  | arp (code : String)
  | integrity
deriving DecidableEq

inductive GenerationState
  | building
  | ready
  | retired
deriving DecidableEq

structure GenerationRow where
  indexGeneration : Nat
  viewPolicyHash : String
  chunkerFingerprint : String
  embeddingFingerprint : String
  state : GenerationState
  nextCommitSeq : Nat
deriving DecidableEq

structure GroupSourceRow where
  groupId : String
  sourceHash : String
  seqFrom : Nat
  seqTo : Nat
deriving DecidableEq

structure IndexedGroupRow where
  indexGeneration : Nat
  groupId : String
  sourceHash : String
  viewHash : String
  chunkCount : Nat
  vectorReadyCount : Nat
  commitSeq : Nat
deriving DecidableEq

structure ChunkId where
  indexGeneration : Nat
  recordId : String
  utf8Start : Nat
  utf8End : Nat
  sourceHash : String
deriving DecidableEq

structure ChunkRow where
  chunkId : ChunkId
  indexGeneration : Nat
  groupId : String
  recordId : String
  utf8Start : Nat
  utf8End : Nat
  sourceHash : String
  viewHash : String
  chunkerFingerprint : String
  textView : String
  commitSeq : Nat
deriving DecidableEq

structure VectorRow where
  chunkId : ChunkId
  indexGeneration : Nat
  embeddingFingerprint : String
  dim : Nat
  sourceHash : String
  commitSeq : Nat
deriving DecidableEq

structure Partition where
  generations : Dict Nat GenerationRow
  sources : Dict String GroupSourceRow
  groups : Dict (Nat × String) IndexedGroupRow
  chunks : List ChunkRow
  vectors : List VectorRow
deriving DecidableEq

def Partition.empty : Partition := ⟨[], [], [], [], []⟩

structure ChunkInput where
  chunkId : ChunkId
  recordId : String
  utf8Start : Nat
  utf8End : Nat
  textView : String
deriving DecidableEq

inductive VectorRefusal
  | dimension
  | invalid
  | zero
deriving DecidableEq

def VectorRefusal.code : VectorRefusal → String
  | .dimension => "EMBEDDING_DIM_MISMATCH"
  | .invalid => "INVALID_EMBEDDING"
  | .zero => "ZERO_EMBEDDING"

/-- A closed group with its chunks; the vectors by chunk, where there are any, each by what
`validate_vector` says of it: its length, or a refusal. -/
structure Batch where
  generation : GenerationRow
  groupId : String
  sourceHash : String
  seqFrom : Nat
  seqTo : Nat
  viewHash : String
  chunks : List ChunkInput
  vectors : Option (Dict ChunkId (Except VectorRefusal Nat))
  embeddingReceipt : Bool
deriving DecidableEq

structure MaterializationReceipt where
  indexGeneration : Nat
  groupId : String
  sourceHash : String
  viewHash : String
  commitSeq : Nat
  chunkIds : List ChunkId
  vectorChunkIds : List ChunkId
deriving DecidableEq

namespace Partition
variable (p : Partition)

def groupSource (groupId : String) : Option GroupSourceRow := get? p.sources groupId

def isMaterialized (indexGeneration : Nat) (groupId : String) : Bool :=
  (get? p.groups (indexGeneration, groupId)).isSome

def live (indexGeneration : Nat) (fits : GenerationRow → Bool) : Bool :=
  match get? p.generations indexGeneration with
  | none => false
  | some row => row.state ≠ .retired && fits row

def sameView (one other : ChunkRow) : Bool :=
  one.indexGeneration = other.indexGeneration && one.recordId = other.recordId &&
    one.utf8Start = other.utf8Start && one.utf8End = other.utf8End &&
    one.sourceHash = other.sourceHash && one.viewHash = other.viewHash &&
    one.chunkerFingerprint = other.chunkerFingerprint

/-- `INSERT INTO session_chunks` with its triggers. -/
def insertChunk (row : ChunkRow) : Except IndexError Partition :=
  if row.utf8Start < row.utf8End ∧ row.textView.utf8ByteSize ≤ MAX_CHUNK_BYTES ∧
      (∀ other ∈ p.chunks, other.chunkId ≠ row.chunkId ∧ sameView other row = false) ∧
      p.live row.indexGeneration (·.chunkerFingerprint = row.chunkerFingerprint) = true then
    .ok { p with chunks := p.chunks ++ [row] }
  else .error .integrity

/-- `INSERT INTO session_vectors` with its triggers. -/
def insertVector (row : VectorRow) : Except IndexError Partition :=
  if 0 < row.dim ∧ row.dim ≤ 65536 ∧
      (∀ other ∈ p.vectors, ¬ (other.chunkId = row.chunkId ∧
        other.indexGeneration = row.indexGeneration ∧
        other.embeddingFingerprint = row.embeddingFingerprint)) ∧
      (∃ chunk ∈ p.chunks, chunk.chunkId = row.chunkId ∧
        chunk.indexGeneration = row.indexGeneration ∧ chunk.sourceHash = row.sourceHash) ∧
      p.live row.indexGeneration (·.embeddingFingerprint = row.embeddingFingerprint) = true then
    .ok { p with vectors := p.vectors ++ [row] }
  else .error .integrity

def putChunk (batch : Batch) (commitSeq : Nat) (vectorIds : List ChunkId) (chunk : ChunkInput) :
    Except IndexError Partition := do
  require (chunk.textView.utf8ByteSize ≤ MAX_CHUNK_BYTES) (.arp "DOCUMENT_TOO_LARGE")
  let p ← p.insertChunk {
    chunkId := chunk.chunkId
    indexGeneration := batch.generation.indexGeneration
    groupId := batch.groupId
    recordId := chunk.recordId
    utf8Start := chunk.utf8Start
    utf8End := chunk.utf8End
    sourceHash := batch.sourceHash
    viewHash := batch.viewHash
    chunkerFingerprint := batch.generation.chunkerFingerprint
    textView := chunk.textView
    commitSeq }
  if chunk.chunkId ∈ vectorIds then
    match batch.vectors.bind (get? · chunk.chunkId) with
    | none => .ok p
    | some (.error refusal) => .error (.arp refusal.code)
    | some (.ok dim) => p.insertVector {
        chunkId := chunk.chunkId
        indexGeneration := batch.generation.indexGeneration
        embeddingFingerprint := batch.generation.embeddingFingerprint
        dim
        sourceHash := batch.sourceHash
        commitSeq }
  else .ok p

def putChunks (batch : Batch) (commitSeq : Nat) (vectorIds : List ChunkId) :
    Partition → List ChunkInput → Except IndexError Partition
  | p, [] => .ok p
  | p, chunk :: rest => do
    let p ← p.putChunk batch commitSeq vectorIds chunk
    putChunks batch commitSeq vectorIds p rest

/-- The source of a closed group is recorded once and never changes. -/
def recordSource (batch : Batch) : Except IndexError Partition :=
  match p.groupSource batch.groupId with
  | none =>
    if 0 < batch.seqFrom ∧ batch.seqFrom ≤ batch.seqTo then
      let row : GroupSourceRow := ⟨batch.groupId, batch.sourceHash, batch.seqFrom, batch.seqTo⟩
      .ok { p with sources := set p.sources batch.groupId row }
    else .error .integrity
  | some existing =>
    if existing.sourceHash ≠ batch.sourceHash then .error (.arp "GROUP_HASH_CONFLICT") else .ok p

/-- `materialize_group_locked`, in the caller's transaction. -/
def materializeGroup (batch : Batch) : Except IndexError (Partition × MaterializationReceipt) := do
  let p ← p.recordSource batch
  let number := batch.generation.indexGeneration
  require (p.isMaterialized number batch.groupId = false) (.arp "DUPLICATE_GROUP")
  match get? p.generations number with
  | none => .error .integrity
  | some current => do
    let commitSeq := current.nextCommitSeq
    let ids := batch.chunks.map ChunkInput.chunkId
    require ids.Nodup (.arp "DUPLICATE_ITEM")
    let vectorIds :=
      match batch.vectors with
      | none => []
      | some vectors => ids.filter fun id => (get? vectors id).isSome
    require (vectorIds = [] ∨ batch.embeddingReceipt = true) (.arp "INVALID_EMBEDDING")
    let grouped : Partition := { p with
      groups := set p.groups (number, batch.groupId) {
        indexGeneration := number
        groupId := batch.groupId
        sourceHash := batch.sourceHash
        viewHash := batch.viewHash
        chunkCount := batch.chunks.length
        vectorReadyCount := vectorIds.length
        commitSeq } }
    let written ← putChunks batch commitSeq vectorIds grouped batch.chunks
    .ok ({ written with
      generations := set written.generations number
        { current with nextCommitSeq := commitSeq + 1 } },
      { indexGeneration := number
        groupId := batch.groupId
        sourceHash := batch.sourceHash
        viewHash := batch.viewHash
        commitSeq
        chunkIds := ids
        vectorChunkIds := vectorIds })

variable {batch : Batch} {commitSeq : Nat} {vectorIds : List ChunkId} {chunk : ChunkInput}
  {e : IndexError} {chunks : List ChunkInput}

theorem putChunk_error {p : Partition}
    (raised : p.putChunk batch commitSeq vectorIds chunk = .error e) :
    e ≠ .arp "GROUP_HASH_CONFLICT" := by
  rcases bind_eq_error.mp raised with large | ⟨_, _, raised⟩
  · obtain ⟨_, code⟩ := require_eq_error.mp large
    simp [← code]
  · rcases bind_eq_error.mp raised with refused | ⟨inserted, _, raised⟩
    · unfold insertChunk at refused
      split at refused
      · cases refused
      · cases refused
        simp
    · unfold insertVector at raised
      split at raised
      · split at raised
        · cases raised
        · rename_i refusal _
          cases raised
          cases refusal <;> simp [VectorRefusal.code]
        · split at raised
          · cases raised
          · cases raised
            simp
      · cases raised

theorem putChunks_error {p : Partition}
    (raised : putChunks batch commitSeq vectorIds p chunks = .error e) :
    e ≠ .arp "GROUP_HASH_CONFLICT" := by
  induction chunks generalizing p with
  | nil => cases raised
  | cons chunk rest ih =>
    rw [putChunks] at raised
    cases first : p.putChunk batch commitSeq vectorIds chunk with
    | error cause =>
      rw [first] at raised
      cases raised
      exact putChunk_error first
    | ok next =>
      rw [first] at raised
      exact ih raised

theorem materialize_conflict (p : Partition) (batch : Batch) :
    p.materializeGroup batch = .error (.arp "GROUP_HASH_CONFLICT") ↔
      ∃ row, p.groupSource batch.groupId = some row ∧ row.sourceHash ≠ batch.sourceHash := by
  have later : ∀ q : Partition, p.recordSource batch = .ok q →
      p.materializeGroup batch ≠ .error (.arp "GROUP_HASH_CONFLICT") := by
    intro q recorded raised
    rcases bind_eq_error.mp raised with refused | ⟨_, _, raised⟩
    · rw [recorded] at refused
      cases refused
    rcases bind_eq_error.mp raised with duplicate | ⟨_, _, raised⟩
    · obtain ⟨_, code⟩ := require_eq_error.mp duplicate
      simp at code
    · dsimp only at raised
      split at raised
      · cases raised
      · rcases bind_eq_error.mp raised with repeated | ⟨_, _, raised⟩
        · obtain ⟨_, code⟩ := require_eq_error.mp repeated
          simp at code
        · rcases bind_eq_error.mp raised with unproved | ⟨_, _, raised⟩
          · obtain ⟨_, code⟩ := require_eq_error.mp unproved
            simp at code
          · rcases bind_eq_error.mp raised with refused | ⟨_, _, raised⟩
            · exact putChunks_error refused rfl
            · cases raised
  cases found : p.groupSource batch.groupId with
  | none =>
    constructor
    · intro raised
      by_cases range : 0 < batch.seqFrom ∧ batch.seqFrom ≤ batch.seqTo
      · exact absurd raised (later _ (by rw [recordSource, found]; exact if_pos range))
      · have refused : p.recordSource batch = .error .integrity := by
          rw [recordSource, found]
          exact if_neg range
        rw [materializeGroup, refused] at raised
        cases raised
    · intro conflict
      obtain ⟨_, impossible, _⟩ := conflict
      cases impossible
  | some row =>
    by_cases same : row.sourceHash = batch.sourceHash
    · have recorded : p.recordSource batch = .ok p := by
        rw [recordSource, found]
        simp [same]
      constructor
      · intro raised
        exact absurd raised (later p recorded)
      · intro conflict
        obtain ⟨row', one, different⟩ := conflict
        cases one
        exact absurd same different
    · have refused : p.recordSource batch = .error (.arp "GROUP_HASH_CONFLICT") := by
        rw [recordSource, found]
        simp [same]
      constructor
      · intro _
        exact ⟨row, rfl, same⟩
      · intro _
        rw [materializeGroup, refused]
        rfl

theorem putChunk_sources {p q : Partition}
    (done : p.putChunk batch commitSeq vectorIds chunk = .ok q) : q.sources = p.sources := by
  obtain ⟨_, done⟩ := then_eq_ok.mp done
  obtain ⟨inserted, wrote, done⟩ := bind_eq_ok.mp done
  have kept : inserted.sources = p.sources := by
    unfold insertChunk at wrote
    split at wrote
    · cases wrote
      rfl
    · cases wrote
  rw [← kept]
  unfold insertVector at done
  split at done
  · split at done
    · cases done
      rfl
    · cases done
    · split at done
      · cases done
        rfl
      · cases done
  · cases done
    rfl

theorem putChunks_sources {p q : Partition}
    (done : putChunks batch commitSeq vectorIds p chunks = .ok q) : q.sources = p.sources := by
  induction chunks generalizing p with
  | nil =>
    cases done
    rfl
  | cons chunk rest ih =>
    obtain ⟨next, first, done⟩ := bind_eq_ok.mp done
    rw [ih done, putChunk_sources first]

theorem materialize_sources {p q : Partition} {batch : Batch} {receipt : MaterializationReceipt}
    (done : p.materializeGroup batch = .ok (q, receipt)) {groupId : String} {row : GroupSourceRow}
    (found : q.groupSource groupId = some row) :
    p.groupSource groupId = some row ∨
      (groupId = batch.groupId ∧ row.sourceHash = batch.sourceHash) := by
  obtain ⟨recorded, source, done⟩ := bind_eq_ok.mp done
  obtain ⟨_, done⟩ := then_eq_ok.mp done
  dsimp only at done
  split at done
  · cases done
  · obtain ⟨_, done⟩ := then_eq_ok.mp done
    obtain ⟨_, done⟩ := then_eq_ok.mp done
    obtain ⟨written, chunks, done⟩ := bind_eq_ok.mp done
    cases done
    have kept := putChunks_sources chunks
    rw [groupSource, kept] at found
    unfold recordSource at source
    split at source
    · split at source
      · cases source
        rw [get?_set] at found
        split at found
        · rename_i here
          cases found
          exact Or.inr ⟨here.symm, rfl⟩
        · exact Or.inl found
      · cases source
    · split at source
      · cases source
      · cases source
        exact Or.inl found

end Partition

end SessionIndex
