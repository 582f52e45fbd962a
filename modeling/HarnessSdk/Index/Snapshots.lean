import HarnessSdk.Index.Partition
import HarnessSdk.Library.Leaders
import HarnessSdk.Library.Text
import HarnessSdk.Library.Transitions

/-! A paged scan of a session's index at one commit, while more groups are indexed. -/
namespace SessionIndex
open Checks PyDict PyText Leaders Transitions

structure Snapshot where
  indexGeneration : Nat
  upperCommit : Nat
  journalHighwater : Nat
  exclusions : List String

structure ScanRow where
  rowid : Nat
  chunk : ChunkRow
  source : GroupSourceRow
  vector : Option VectorRow

namespace Partition
variable (p : Partition)

section
variable (viewPolicyHash chunkerFingerprint embeddingFingerprint : String)

def findGeneration : Option GenerationRow :=
  (((p.generations.map Prod.snd).filter fun row => row.viewPolicyHash = viewPolicyHash ∧
    row.chunkerFingerprint = chunkerFingerprint ∧
    row.embeddingFingerprint = embeddingFingerprint ∧ row.state ≠ .retired).insertionSort
      fun a b => b.indexGeneration ≤ a.indexGeneration).head?

def ensureGeneration : Partition × GenerationRow :=
  match p.findGeneration viewPolicyHash chunkerFingerprint embeddingFingerprint with
  | some existing => (p, existing)
  | none =>
    let number := (keys p.generations).max?.getD 0 + 1
    let row : GenerationRow :=
      ⟨number, viewPolicyHash, chunkerFingerprint, embeddingFingerprint, .ready, 1⟩
    ({ p with generations := set p.generations number row }, row)

end

/-- A rebuild retires the old generation before it looks for one. -/
def retire (old : Nat) : Partition :=
  match get? p.generations old with
  | none => p
  | some row => { p with generations := set p.generations old { row with state := .retired } }

def upperCommit (indexGeneration : Nat) : Except IndexError Nat :=
  match get? p.generations indexGeneration with
  | none => .error (.arp "GENERATION_STALE")
  | some row => .ok (row.nextCommitSeq - 1)

variable (s : Snapshot)

def vectorsOf (chunk : ChunkRow) : List VectorRow :=
  p.vectors.filter fun vector => vector.chunkId = chunk.chunkId ∧
    vector.indexGeneration = chunk.indexGeneration ∧ vector.commitSeq ≤ s.upperCommit

/-- A row of `_rows`. A vector has the fingerprint of its generation, so by the key of their table a
chunk has at most one there, and the left join gives one row: with the first vector, or with none. -/
def scanRow (entry : ChunkRow × Nat) : Option ScanRow :=
  if entry.1.indexGeneration = s.indexGeneration ∧ entry.1.commitSeq ≤ s.upperCommit ∧
      entry.1.groupId ∉ s.exclusions then
    ((p.groupSource entry.1.groupId).filter fun source =>
      source.sourceHash = entry.1.sourceHash ∧ source.seqTo ≤ s.journalHighwater).map fun source =>
        ⟨entry.2, entry.1, source, (p.vectorsOf s entry.1).head?⟩
  else none

/-- The rows that `_count_visible` counts and `_rows` reads, in the order of their ids. -/
def visible : List ScanRow := (p.chunks.zipIdx 1).filterMap (p.scanRow s)

/-- The transactions of a partition. A group that is materialised already is not written again. -/
inductive Step
  | ensure (viewPolicyHash chunkerFingerprint embeddingFingerprint : String) (retiring : Option Nat)
  | index (batch : Batch)

def act (p : Partition) : Step → Partition
  | .ensure view chunker embedding retiring =>
    ((retiring.elim p p.retire).ensureGeneration view chunker embedding).1
  | .index batch =>
    if p.isMaterialized batch.generation.indexGeneration batch.groupId then p
    else
      match p.materializeGroup batch with
      | .ok (written, _) => written
      | .error _ => p

/-! What a step leaves alone. -/

def Appends {α : Type} (late : α → Prop) (xs ys : List α) : Prop :=
  ∃ more, ys = xs ++ more ∧ ∀ a ∈ more, late a

/-- No commit of the generation has reached this one yet. -/
def Later (indexGeneration commitSeq : Nat) : Prop :=
  ∀ row, get? p.generations indexGeneration = some row → row.nextCommitSeq ≤ commitSeq

structure Extends (p q : Partition) : Prop where
  generations : ∀ n row, get? p.generations n = some row →
    ∃ row', get? q.generations n = some row' ∧ row.nextCommitSeq ≤ row'.nextCommitSeq
  sources : ∀ id row, p.groupSource id = some row → q.groupSource id = some row
  chunks : Appends (fun chunk => p.Later chunk.indexGeneration chunk.commitSeq) p.chunks q.chunks
  vectors : Appends (fun vector => p.Later vector.indexGeneration vector.commitSeq)
    p.vectors q.vectors

structure Sound (p : Partition) : Prop where
  generations : ∀ n row, get? p.generations n = some row → 0 < row.nextCommitSeq
  chunks : ∀ chunk ∈ p.chunks, ∃ source, p.groupSource chunk.groupId = some source

structure Grows (p q : Partition) : Prop extends Extends p q where
  sound : Sound q

variable {p s} {q r : Partition}

theorem Appends.refl {α : Type} (P : α → Prop) (xs : List α) : Appends P xs xs :=
  ⟨[], by simp, nofun⟩

theorem Appends.trans {α : Type} {P Q : α → Prop} {xs ys zs : List α} (first : Appends P xs ys)
    (second : Appends Q ys zs) (weaker : ∀ a, Q a → P a) : Appends P xs zs := by
  obtain ⟨more, rfl, late⟩ := first
  obtain ⟨last, rfl, later⟩ := second
  refine ⟨more ++ last, List.append_assoc _ _ _, fun a inside => ?_⟩
  exact (List.mem_append.mp inside).elim (late a) fun inside => weaker a (later a inside)

theorem Extends.later (ext : Extends p q) {n seq : Nat} (late : q.Later n seq) : p.Later n seq := by
  intro row found
  obtain ⟨row', found', more⟩ := ext.generations n row found
  exact more.trans (late row' found')

theorem Grows.trans (first : Grows p q) (second : Grows q r) : Grows p r where
  generations := by
    intro n row found
    obtain ⟨row', found', more⟩ := first.generations n row found
    obtain ⟨row'', found'', more'⟩ := second.generations n row' found'
    exact ⟨row'', found'', more.trans more'⟩
  sources := fun id row found => second.sources id row (first.sources id row found)
  chunks := first.chunks.trans second.chunks fun _ => first.later
  vectors := first.vectors.trans second.vectors fun _ => first.later
  sound := second.sound

theorem Later.not_counted {row : GenerationRow} {n seq : Nat} (late : p.Later n seq)
    (known : get? p.generations s.indexGeneration = some row)
    (upper : s.upperCommit < row.nextCommitSeq) :
    ¬ (n = s.indexGeneration ∧ seq ≤ s.upperCommit) := by
  rintro ⟨rfl, counted⟩
  have above := late row known
  omega

theorem Extends.visible (ext : Extends p q) (sound : Sound p) {row : GenerationRow}
    (known : get? p.generations s.indexGeneration = some row)
    (upper : s.upperCommit < row.nextCommitSeq) : q.visible s = p.visible s := by
  obtain ⟨more, same, late⟩ := ext.chunks
  rw [Partition.visible, same, List.zipIdx_append, List.filterMap_append]
  have none_late : (more.zipIdx (1 + p.chunks.length)).filterMap (q.scanRow s) = [] := by
    rw [List.filterMap_eq_nil_iff]
    intro entry inside
    rw [scanRow, if_neg]
    intro counted
    exact (late _ (List.fst_mem_of_mem_zipIdx inside)).not_counted known upper
      ⟨counted.1, counted.2.1⟩
  rw [none_late, List.append_nil]
  apply List.filterMap_congr
  intro entry inside
  unfold scanRow
  split
  · rename_i counted
    obtain ⟨source, found⟩ := sound.chunks _ (List.fst_mem_of_mem_zipIdx inside)
    obtain ⟨more, same, late⟩ := ext.vectors
    have none_joined : more.filter (fun vector => vector.chunkId = entry.1.chunkId ∧
        vector.indexGeneration = entry.1.indexGeneration ∧
          vector.commitSeq ≤ s.upperCommit) = [] := by
      rw [List.filter_eq_nil_iff]
      intro vector inside joined
      simp only [decide_eq_true_eq] at joined
      exact (late vector inside).not_counted known upper ⟨joined.2.1.trans counted.1, joined.2.2⟩
    have vectors : q.vectorsOf s entry.1 = p.vectorsOf s entry.1 := by
      rw [vectorsOf, same, List.filter_append, none_joined, List.append_nil, vectorsOf]
    rw [found, ext.sources _ _ found, vectors]
  · rfl

/-! What a step writes. -/

/-- Rows of one commit of a batch are put at the end. -/
def Puts (batch : Batch) (commitSeq : Nat) (p q : Partition) : Prop :=
  ∃ chunks vectors, q = { p with chunks := p.chunks ++ chunks, vectors := p.vectors ++ vectors } ∧
    (∀ chunk ∈ chunks, chunk.indexGeneration = batch.generation.indexGeneration ∧
      chunk.groupId = batch.groupId ∧ chunk.commitSeq = commitSeq) ∧
    ∀ vector ∈ vectors, vector.indexGeneration = batch.generation.indexGeneration ∧
      vector.commitSeq = commitSeq

variable {batch : Batch} {commitSeq : Nat} {vectorIds : List ChunkId} (sound : Sound p)

theorem putChunk_puts {chunk : ChunkInput}
    (done : p.putChunk batch commitSeq vectorIds chunk = .ok q) : Puts batch commitSeq p q := by
  obtain ⟨_, done⟩ := then_eq_ok.mp done
  obtain ⟨inserted, wrote, done⟩ := bind_eq_ok.mp done
  unfold insertChunk at wrote
  split at wrote
  · cases wrote
    unfold insertVector at done
    repeat' split at done
    all_goals cases done
    · exact ⟨[_], [], by simp; rfl, by simp, by simp⟩
    · exact ⟨[_], [_], rfl, by simp, by simp⟩
    · exact ⟨[_], [], by simp; rfl, by simp, by simp⟩
  · cases wrote

theorem putChunks_puts {chunks : List ChunkInput}
    (done : putChunks batch commitSeq vectorIds p chunks = .ok q) : Puts batch commitSeq p q := by
  induction chunks generalizing p with
  | nil =>
    cases done
    exact ⟨[], [], by simp, nofun, nofun⟩
  | cons chunk rest ih =>
    obtain ⟨next, here, done⟩ := bind_eq_ok.mp done
    obtain ⟨first, vector, rfl, own, embeds⟩ := putChunk_puts here
    obtain ⟨others, vectors, rfl, owns, embeds'⟩ := ih done
    exact ⟨first ++ others, vector ++ vectors, by simp, List.forall_mem_append.mpr ⟨own, owns⟩,
      List.forall_mem_append.mpr ⟨embeds, embeds'⟩⟩

include sound

theorem Grows.refl : Grows p p where
  generations := fun _ row found => ⟨row, found, le_refl _⟩
  sources := fun _ _ found => found
  chunks := .refl _ _
  vectors := .refl _ _
  sound := sound

theorem setGeneration_grows {n : Nat} {row : GenerationRow} (positive : 0 < row.nextCommitSeq)
    (grows : ∀ old, get? p.generations n = some old → old.nextCommitSeq ≤ row.nextCommitSeq) :
    Grows p { p with generations := set p.generations n row } := by
  refine ⟨⟨?_, fun _ _ found => found, .refl _ _, .refl _ _⟩, ?_, sound.chunks⟩
  · intro m old found
    rw [get?_set]
    split
    · rename_i same
      exact ⟨row, rfl, grows old (same ▸ found)⟩
    · exact ⟨old, found, le_refl _⟩
  · exact every_set sound.generations positive

theorem ensureGeneration_grows (view chunker embedding : String) :
    Grows p (p.ensureGeneration view chunker embedding).1 := by
  unfold ensureGeneration
  split
  · exact .refl sound
  · refine setGeneration_grows sound Nat.one_pos fun old found => ?_
    have known := (get?_isSome_iff p.generations _).mp (Option.isSome_of_eq_some found)
    have small := List.le_max?_getD_of_mem (k := 0) known
    omega

theorem retire_grows (old : Nat) : Grows p (p.retire old) := by
  unfold retire
  split
  · exact .refl sound
  · rename_i row found
    exact setGeneration_grows sound (sound.generations old row found) (by simp [found])

theorem recordSource_grows (done : p.recordSource batch = .ok q) :
    Grows p q ∧ (∃ source, q.groupSource batch.groupId = some source) := by
  unfold recordSource at done
  split at done
  · rename_i missing
    split at done
    · cases done
      have kept (row : GroupSourceRow) {id : String} {old : GroupSourceRow}
          (found : p.groupSource id = some old) :
          get? (set p.sources batch.groupId row) id = some old := by
        rw [get?_set_ne]
        · exact found
        · rintro rfl
          cases missing.symm.trans found
      refine ⟨⟨⟨fun n row found => ⟨row, found, le_refl _⟩, fun _ _ => kept _, .refl _ _, .refl _ _⟩,
        sound.generations, fun chunk inside => ?_⟩, _, (get?_set _ _ _ _).trans (if_pos rfl)⟩
      obtain ⟨source, found⟩ := sound.chunks chunk inside
      exact ⟨source, kept _ found⟩
    · cases done
  · rename_i source found
    split at done
    · cases done
    · cases done
      exact ⟨.refl sound, source, found⟩

theorem materialize_grows {receipt : MaterializationReceipt}
    (done : p.materializeGroup batch = .ok (q, receipt)) : Grows p q := by
  obtain ⟨recorded, source, done⟩ := bind_eq_ok.mp done
  obtain ⟨_, done⟩ := then_eq_ok.mp done
  dsimp only at done
  split at done
  · cases done
  rename_i current known
  obtain ⟨_, done⟩ := then_eq_ok.mp done
  obtain ⟨_, done⟩ := then_eq_ok.mp done
  obtain ⟨written, put, done⟩ := bind_eq_ok.mp done
  cases done
  obtain ⟨first, there⟩ := recordSource_grows sound source
  obtain ⟨chunks, vectors, rfl, chunked, embedded⟩ := putChunks_puts put
  have late : ∀ row, get? recorded.generations batch.generation.indexGeneration = some row →
      row.nextCommitSeq ≤ current.nextCommitSeq := by
    intro row found
    cases found.symm.trans known
    exact le_refl _
  have counted := first.trans (@setGeneration_grows _ first.sound _
    { current with nextCommitSeq := current.nextCommitSeq + 1 } (Nat.succ_pos _)
    fun row found => Nat.le_succ_of_le (late row found))
  refine ⟨⟨counted.generations, first.sources,
    first.chunks.trans ⟨chunks, rfl, fun chunk inside => ?_⟩ fun _ => first.later,
    first.vectors.trans ⟨vectors, rfl, fun vector inside => ?_⟩ fun _ => first.later⟩,
    counted.sound.generations, List.forall_mem_append.mpr ⟨first.sound.chunks, fun chunk inside => ?_⟩⟩
  · rwa [(chunked chunk inside).1, (chunked chunk inside).2.2]
  · rwa [(embedded vector inside).1, (embedded vector inside).2]
  · rwa [(chunked chunk inside).2.1]

theorem act_grows (step : Step) : Grows p (act p step) := by
  cases step with
  | ensure view chunker embedding retiring =>
    have retired : Grows p (retiring.elim p p.retire) := by
      cases retiring with
      | none => exact .refl sound
      | some old => exact retire_grows sound old
    exact retired.trans (ensureGeneration_grows retired.sound view chunker embedding)
  | index batch =>
    rw [act]
    split
    · exact .refl sound
    · cases done : p.materializeGroup batch with
      | error refusal => exact .refl sound
      | ok written => exact materialize_grows sound done

theorem run_grows (steps : List Step) : Grows p (run act p steps) := by
  induction steps generalizing p with
  | nil => exact .refl sound
  | cons step rest ih => exact (act_grows sound step).trans (ih (act_grows sound step).sound)

theorem upperCommit_eq_ok {n upper : Nat} (found : p.upperCommit n = .ok upper) :
    ∃ row, get? p.generations n = some row ∧ upper < row.nextCommitSeq := by
  unfold upperCommit at found
  split at found
  · cases found
  · rename_i row known
    cases found
    have positive := sound.generations n row known
    exact ⟨row, known, by omega⟩

end Partition

/-! The scan. -/

def MAX_SCAN_PAGES : Nat := 256

structure Hit (σ : Type) where
  chunkId : ChunkId
  score : σ
  stableKey : Lex (String × Lex (String × Lex (Nat × Lex (Nat × String))))

structure Query (σ : Type) where
  snapshot : Snapshot
  pageRows : Nat
  channelTopK : Nat
  snapshotChunks : Nat
  scoreRow : ScanRow → List (String × σ)
  idText : ChunkId → String

/-- The state of a query; it is done once its phase is RESULTS. -/
structure Scan (σ : Type) where
  afterRowid : Nat := 0
  heaps : String → List (Hit σ) := fun _ => []
  scanned : Nat := 0
  groups : List String := []
  ordinal : Nat := 1
  done : Bool := false

namespace Query
variable {σ : Type} [LinearOrder σ] (q : Query σ)

def hits (channel : String) (rows : List ScanRow) : List (Hit σ) :=
  rows.flatMap fun row => (q.scoreRow row).filterMap fun scored =>
    if scored.1 = channel then
      some ⟨row.chunk.chunkId, scored.2, toLex (row.chunk.recordId, toLex (row.chunk.sourceHash,
        toLex (row.chunk.utf8Start, toLex (row.chunk.utf8End, q.idText row.chunk.chunkId))))⟩
    else none

def top (hits : List (Hit σ)) : List (Hit σ) :=
  leaders (fun hit => toLex (OrderDual.toDual hit.score, hit.stableKey)) q.channelTopK hits

def scanPage (p : Partition) (scan : Scan σ) : Except IndexError (Scan σ) := do
  require (scan.ordinal ≤ MAX_SCAN_PAGES) (.arp "INDEX_SCAN_LIMIT")
  let rows := ((p.visible q.snapshot).filter (scan.afterRowid < ·.rowid)).take q.pageRows
  let scanned := scan.scanned + rows.length
  .ok {
    afterRowid := (rows.getLast?.map (·.rowid)).getD scan.afterRowid
    heaps := fun channel => q.top (scan.heaps channel ++ q.hits channel rows)
    scanned
    groups := sorted (fromkeys (scan.groups ++ rows.map (·.chunk.groupId)))
    ordinal := scan.ordinal + 1
    done := q.snapshotChunks ≤ scanned || rows.isEmpty }

/-- The pages of a scan, each after some transactions. -/
def scanAll (p : Partition) (scan : Scan σ) : List (List Partition.Step) → Except IndexError (Scan σ)
  | [] => .ok scan
  | steps :: rest =>
    if scan.done then .ok scan
    else do
      let next ← q.scanPage (run Partition.act p steps) scan
      scanAll (run Partition.act p steps) next rest

/-- Where a scan stands between the rows that it has read and the others. -/
structure Read (read rest : List ScanRow) (scan : Scan σ) : Prop where
  behind : ∀ row ∈ read, row.rowid ≤ scan.afterRowid
  ahead : ∀ row ∈ rest, scan.afterRowid < row.rowid
  heaps : ∀ channel, scan.heaps channel = q.top (q.hits channel read)
  scanned : scan.scanned = read.length
  groups : ∀ id, id ∈ scan.groups ↔ ∃ row ∈ read, row.chunk.groupId = id
  finished : scan.done = true → rest = []
  going : scan.done = false → read.length + q.pageRows = scan.ordinal * q.pageRows ∧
    (scan.ordinal = 1 ∨ rest ≠ [])

variable {q} {p : Partition} {scan next : Scan σ} {read rest : List ScanRow}

theorem scanRow_rowid {s : Snapshot} {entry : ChunkRow × Nat} {row : ScanRow}
    (made : p.scanRow s entry = some row) : row.rowid = entry.2 := by
  unfold Partition.scanRow at made
  split at made
  · obtain ⟨_, _, rfl⟩ := Option.map_eq_some_iff.mp made
    rfl
  · cases made

theorem visible_rising (s : Snapshot) : (p.visible s).Pairwise (·.rowid < ·.rowid) := by
  have rising : (p.chunks.zipIdx 1).Pairwise (·.2 < ·.2) := by
    rw [← List.pairwise_map (f := Prod.snd) (R := (· < ·)), List.zipIdx_map_snd]
    exact List.pairwise_lt_range'
  refine rising.filterMap _ fun a b less row here row' there => ?_
  rwa [scanRow_rowid here, scanRow_rowid there]

theorem scanPage_reads (some_rows : 0 < q.pageRows) (all : p.visible q.snapshot = read ++ rest)
    (total : q.snapshotChunks = (read ++ rest).length) (reads : q.Read read rest scan)
    (open_ : scan.done = false) (page : q.scanPage p scan = .ok next) :
    q.Read (read ++ rest.take q.pageRows) (rest.drop q.pageRows) next ∧
      next.ordinal = scan.ordinal + 1 := by
  have rising := all ▸ visible_rising q.snapshot
  obtain ⟨_, page⟩ := then_eq_ok.mp page
  have left : (p.visible q.snapshot).filter (scan.afterRowid < ·.rowid) = rest := by
    rw [all, List.filter_append, List.filter_eq_nil_iff.mpr, List.filter_eq_self.mpr]
    · rfl
    · simpa using reads.ahead
    · simpa using reads.behind
  rw [left] at page
  cases page
  have length := List.length_take (i := q.pageRows) (l := rest)
  have standing := reads.going open_
  have scanned := reads.scanned
  rw [List.length_append] at total
  rw [← List.take_append_drop q.pageRows rest, ← List.append_assoc] at rising
  have border : (∀ row ∈ read ++ rest.take q.pageRows, row.rowid ≤
      ((rest.take q.pageRows).getLast?.map (·.rowid)).getD scan.afterRowid) ∧
      ∀ row ∈ rest.drop q.pageRows,
        ((rest.take q.pageRows).getLast?.map (·.rowid)).getD scan.afterRowid < row.rowid := by
    rcases List.eq_nil_or_concat (rest.take q.pageRows) with none_read | ⟨init, last, some_read⟩
    · rw [none_read, List.append_nil]
      exact ⟨reads.behind, fun row inside => reads.ahead row (List.mem_of_mem_drop inside)⟩
    · rw [List.concat_eq_append] at some_read
      rw [some_read, ← List.append_assoc] at rising ⊢
      have pairs := List.pairwise_append.mp rising
      rw [List.getLast?_concat]
      refine ⟨fun row inside => ?_, fun row inside => pairs.2.2 last (by simp) row inside⟩
      rcases mem_snoc.mp inside with before | rfl
      · exact ((List.pairwise_append.mp pairs.1).2.2 row before last (by simp)).le
      · exact le_refl _
  refine ⟨⟨border.1, border.2, ?_, ?_, ?_, ?_, ?_⟩, rfl⟩
  · intro channel
    dsimp only
    rw [reads.heaps, top, top, leaders_append, hits, hits, ← List.flatMap_append]
    rfl
  · simp [scanned]
  · intro id
    simp only [mem_sorted, mem_fromkeys, List.mem_append, reads.groups, List.mem_map,
      or_and_right, exists_or]
  · intro done
    simp only [Bool.or_eq_true, decide_eq_true_eq, List.isEmpty_iff_length_eq_zero] at done
    rw [List.drop_eq_nil_iff]
    omega
  · intro more
    simp only [Bool.or_eq_false_iff, decide_eq_false_iff_not] at more
    rw [List.length_append, Nat.succ_mul, ne_eq, List.drop_eq_nil_iff]
    omega

theorem scanAll_reads (sound : p.Sound) {row : GenerationRow} (some_rows : 0 < q.pageRows)
    (known : get? p.generations q.snapshot.indexGeneration = some row)
    (upper : q.snapshot.upperCommit < row.nextCommitSeq)
    (all : p.visible q.snapshot = read ++ rest) (total : q.snapshotChunks = (read ++ rest).length)
    (reads : q.Read read rest scan) (rounds : List (List Partition.Step)) :
    match q.scanAll p scan rounds with
    | .error e =>
      e = .arp "INDEX_SCAN_LIMIT" ∧ MAX_SCAN_PAGES * q.pageRows < (read ++ rest).length
    | .ok final => ∃ read' rest', read' ++ rest' = read ++ rest ∧ q.Read read' rest' final ∧
      (final.done = false → final.ordinal = scan.ordinal + rounds.length) := by
  induction rounds generalizing p scan read rest row with
  | nil => exact ⟨read, rest, rfl, reads, fun _ => rfl⟩
  | cons steps later ih =>
    rw [scanAll]
    by_cases done : scan.done = true
    · rw [if_pos done]
      exact ⟨read, rest, rfl, reads, fun more => absurd done (by simp [more])⟩
    · rw [if_neg done]
      rw [Bool.not_eq_true] at done
      have grows := Partition.run_grows sound steps
      have same := (grows.visible sound known upper).trans all
      cases page : q.scanPage (run Partition.act p steps) scan with
      | error e =>
        rcases bind_eq_error.mp page with refused | ⟨_, _, refused⟩
        · obtain ⟨beyond, rfl⟩ := require_eq_error.mp refused
          obtain ⟨length, first | more⟩ := reads.going done
          · rw [first, MAX_SCAN_PAGES] at beyond
            omega
          · have some_left := List.length_pos_iff.mpr more
            have pages := Nat.mul_le_mul_right q.pageRows (Nat.lt_of_not_le beyond)
            rw [Nat.succ_mul] at pages
            refine ⟨rfl, ?_⟩
            rw [List.length_append]
            omega
        · cases refused
      | ok next =>
        obtain ⟨reads', ordinal⟩ := scanPage_reads some_rows same total reads done page
        obtain ⟨row', known', higher⟩ := grows.generations _ row known
        have parts : read ++ rest.take q.pageRows ++ rest.drop q.pageRows = read ++ rest := by
          rw [List.append_assoc, List.take_append_drop]
        have left := ih grows.sound known' (upper.trans_le higher) (same.trans parts.symm)
          (parts ▸ total) reads'
        rw [parts, ordinal] at left
        simpa [bind, Except.bind, page, Nat.add_assoc, Nat.add_comm 1] using left

/-- Whatever is indexed between its pages, a scan that ends has ranked the rows that were visible
when its snapshot was taken, each once, as one look at all of them would; only the limit on its
pages stops it before. -/
theorem scan_reads_snapshot {before : List Partition.Step} (some_rows : 0 < q.pageRows)
    (taken : (run Partition.act .empty before).upperCommit q.snapshot.indexGeneration =
      .ok q.snapshot.upperCommit)
    (total : q.snapshotChunks = ((run Partition.act .empty before).visible q.snapshot).length)
    (rounds : List (List Partition.Step)) :
    let rows := (run Partition.act .empty before).visible q.snapshot
    match q.scanAll (run Partition.act .empty before) {} rounds with
    | .error e => e = .arp "INDEX_SCAN_LIMIT" ∧ MAX_SCAN_PAGES * q.pageRows < rows.length
    | .ok scan =>
      (scan.done = true → scan.scanned = rows.length ∧
        (∀ channel, scan.heaps channel = q.top (q.hits channel rows)) ∧
        ∀ id, id ∈ scan.groups ↔ ∃ row ∈ rows, row.chunk.groupId = id) ∧
      (scan.done = false → rounds = [] ∨ rounds.length * q.pageRows < rows.length) := by
  have empty : Partition.empty.Sound :=
    ⟨fun _ _ found => (nomatch found), fun _ inside => (nomatch inside)⟩
  have sound := (Partition.run_grows empty before).sound
  obtain ⟨row, known, upper⟩ := Partition.upperCommit_eq_ok sound taken
  dsimp only
  have start : q.Read [] ((run Partition.act .empty before).visible q.snapshot) {} := by
    refine ⟨nofun, fun row inside => ?_, fun channel => ?_, rfl, ?_, nofun, ?_⟩
    · obtain ⟨entry, there, made⟩ := List.mem_filterMap.mp inside
      rw [scanRow_rowid made]
      exact List.le_snd_of_mem_zipIdx there
    · simp [top, leaders, hits]
    · simp
    · simp
  have ended := scanAll_reads sound some_rows known upper rfl total start rounds
  cases scanned : q.scanAll (run Partition.act .empty before) {} rounds with
  | error e => simpa [scanned] using ended
  | ok scan =>
    simp only [scanned, List.nil_append] at ended
    obtain ⟨read, rest, same, reads, ordinal⟩ := ended
    refine ⟨fun done => ?_, fun more => ?_⟩
    · rw [reads.finished done, List.append_nil] at same
      exact same ▸ ⟨reads.scanned, reads.heaps, reads.groups⟩
    · obtain ⟨length, first | some_left⟩ := reads.going more
      · left
        rw [ordinal more] at first
        exact List.length_eq_zero_iff.mp (by omega)
      · right
        have some_left := List.length_pos_iff.mpr some_left
        rw [ordinal more, Nat.add_mul] at length
        rw [← same, List.length_append]
        omega

def noteQuery : Query Nat where
  snapshot := ⟨1, 2, 2, []⟩
  pageRows := 1
  channelTopK := 2
  snapshotChunks := 2
  scoreRow := fun row => [("text", row.chunk.utf8End)]
  idText := ChunkId.recordId

def noted (groupId : String) : List Partition.Step :=
  [.ensure "view" "chunker" "embedding" none,
    .index ⟨⟨1, "view", "chunker", "embedding", .ready, 1⟩, groupId, "hash", 1, 2, "view",
      [⟨⟨1, groupId, 0, 1, "hash"⟩, groupId, 0, 1, "a"⟩], none, false⟩]

/-- Two notes on two pages, and one more that is indexed in between. -/
theorem scan_reads_notes : ∃ scan,
    noteQuery.scanAll (run Partition.act .empty (noted "a" ++ noted "b")) {}
      [noted "c", [], []] = .ok scan ∧ scan.scanned = 2 ∧
      ∀ channel, scan.heaps channel = noteQuery.top (noteQuery.hits channel
        ((run Partition.act .empty (noted "a" ++ noted "b")).visible noteQuery.snapshot)) := by
  have two : ((run Partition.act .empty (noted "a" ++ noted "b")).visible
      noteQuery.snapshot).length = 2 := by
    decide +kernel
  have reads := @scan_reads_snapshot _ _ noteQuery (noted "a" ++ noted "b") (by decide) rfl
    two.symm [noted "c", [], []]
  cases scanned : noteQuery.scanAll (run Partition.act .empty (noted "a" ++ noted "b")) {}
    [noted "c", [], []] with
  | error e =>
    simp only [scanned, two] at reads
    exact absurd reads.2 (by decide)
  | ok scan =>
    simp only [scanned, two] at reads
    have done : scan.done = true := by
      by_contra more
      simpa [noteQuery] using reads.2 (Bool.eq_false_of_not_eq_true more)
    exact ⟨scan, rfl, (reads.1 done).1, (reads.1 done).2.1⟩

end Query

end SessionIndex
