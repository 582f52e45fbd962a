import HarnessSdk.Context.Stability
import HarnessSdk.Index.Partition

/-! Groups that are captured, enqueued and materialised while the journal grows. -/
namespace AgentContext
open PyDict Checks SessionIndex

def GroupView.seqFrom (g : GroupView) : Nat := (g.records.head?.map Record.seq).getD 0

def GroupView.seqTo (g : GroupView) : Nat := (g.records.getLast?.map Record.seq).getD 0

structure IndexHost where
  agent : AgentHost
  sessionId : String
  digest : List (String × String) → String
  charge : Record → Nat

namespace IndexHost
variable (host : IndexHost)

def captured (s : AgentState) : Except CaptureError GroupSnapshot :=
  (s.source host.agent host.sessionId host.digest host.charge).capture s.journal
    s.journal.highwater

def hashOf (records : List Record) : String :=
  host.digest (records.map fun r => (host.agent.runId ++ ":journal:" ++ toString r.seq,
    r.contentHash))

def AtRest (s : AgentState) (groupId : String) : Prop :=
  s.phase = .ready ∨ groupId ≠ host.agent.providerTurn s.ordinal

end IndexHost

structure SameSource (g g' : GroupView) : Prop where
  groupId : g'.groupId = g.groupId
  seqFrom : g'.seqFrom = g.seqFrom
  seqTo : g'.seqTo = g.seqTo
  sourceHash : g'.sourceHash = g.sourceHash

section
variable {host : IndexHost} {s t : AgentState} {one other : GroupSnapshot}

theorem captured_hash (done : host.captured s = .ok one) {g : GroupView} (inside : g ∈ one.groups) :
    g.sourceHash = host.hashOf g.records := by
  obtain ⟨running, first, later, same, rows⟩ := captured_view done inside
  have hash := @CaptureSource.view_records
    (s.source host.agent host.sessionId host.digest host.charge) one.currentTurnId
    running g.groupId first (first :: later)
  rw [same, hash.1, hash.2]
  rfl

theorem groupRows_prefix (grows : s.Grows host.agent t) (groupId : String) :
    groupRows s.journal.rows groupId <+: groupRows t.journal.rows groupId := by
  obtain ⟨new, rows, _⟩ := grows.rows
  rw [rows, AgentState.groupRows_append]
  exact List.prefix_append _ _

theorem groupRows_order (j : Journal) (groupId : String) :
    (groupRows j.rows groupId).Pairwise fun r t => r.seq < t.seq :=
  (j.seq_increases.sublist List.filter_sublist).sublist List.filter_sublist

theorem captured_again (grows : s.Grows host.agent t) (first : host.captured s = .ok one)
    (second : host.captured t = .ok other) {g : GroupView} (inside : g ∈ one.groups) :
    (∃ g' ∈ other.groups, SameSource g g') ↔
      groupRows t.journal.rows g.groupId = groupRows s.journal.rows g.groupId := by
  obtain ⟨records, some_row⟩ := captured_rows first inside
  constructor
  · intro again
    obtain ⟨g', inside', same⟩ := again
    obtain ⟨records', some_row'⟩ := captured_rows second inside'
    obtain ⟨more, grown⟩ := groupRows_prefix grows g.groupId
    rw [same.groupId, ← grown] at records'
    rw [← grown]
    cases last : more.getLast? with
    | none => rw [List.getLast?_eq_none_iff.mp last, List.append_nil]
    | some r =>
      -- a row that joined would be the last one, with a higher number
      exfalso
      have order := groupRows_order t.journal g.groupId
      rw [← grown] at order
      have apart := (List.pairwise_append.mp order).2.2
      obtain ⟨r', last'⟩ : ∃ r', g.records.getLast? = some r' := by
        cases found : g.records.getLast? with
        | none => exact absurd (List.getLast?_eq_none_iff.mp found) some_row
        | some r' => exact ⟨r', rfl⟩
      have less := apart r' (records ▸ List.mem_of_getLast? last') r (List.mem_of_getLast? last)
      have ends := same.seqTo
      unfold GroupView.seqTo at ends
      have nonempty : more ≠ [] := by
        intro empty
        rw [empty] at last
        cases last
      rw [records', last', List.getLast?_append_of_ne_nil _ nonempty, last] at ends
      simp only [Option.map_some, Option.getD_some] at ends
      omega
  · intro unchanged
    have some_row' : groupRows t.journal.rows g.groupId ≠ [] := by
      rw [unchanged, ← records]
      exact some_row
    obtain ⟨g', inside', same⟩ := captured_of_row second some_row'
    have records' : g'.records = g.records := by
      rw [(captured_rows second inside').1, same, unchanged, records]
    refine ⟨g', inside', same, ?_, ?_, ?_⟩
    · rw [GroupView.seqFrom, records', GroupView.seqFrom]
    · rw [GroupView.seqTo, records', GroupView.seqTo]
    · rw [captured_hash second inside', captured_hash first inside, records']

structure Partitions (rows : List Record) (groups : List GroupView) : Prop where
  distinct : (groups.map GroupView.groupId).Nodup
  filled : ∀ g ∈ groups, g.records ≠ [] ∧ g.records = groupRows rows g.groupId
  covered : ∀ r ∈ rows, r.kind ≠ .instructions → ∃ g ∈ groups, r ∈ g.records

theorem captured_partitions (done : host.captured s = .ok one) :
    Partitions s.journal.rows one.groups where
  distinct := captured_nodup done
  filled := fun _ inside => (captured_rows done inside).symm
  covered := by
    intro r inside kind
    have member : r ∈ groupRows s.journal.rows r.protocolGroupId := by
      simp [groupRows, inside, kind]
    obtain ⟨g, listed, same⟩ := captured_of_row done (List.ne_nil_of_mem member)
    refine ⟨g, listed, ?_⟩
    rw [(captured_rows done listed).1, same]
    exact member

end

/-- The agent, the jobs made from captures, and the partition they are materialised in. -/
structure Indexed where
  agent : AgentState
  jobs : List GroupView
  partition : Partition

def Indexed.start : Indexed := ⟨.start, [], .empty⟩

structure Material where
  generation : GenerationRow
  viewHash : String
  chunks : List ChunkInput
  vectors : Option (Dict ChunkId (Except VectorRefusal Nat))
  embeddingReceipt : Bool

inductive IndexMove
  | event (e : Event)
  /-- One indexable group of a capture made now becomes a job. -/
  | enqueue (groupId : String)
  | generation (row : GenerationRow)
  | process (job : Nat) (material : Material)

def GroupView.batch (g : GroupView) (material : Material) : Batch where
  generation := material.generation
  groupId := g.groupId
  sourceHash := g.sourceHash
  seqFrom := g.seqFrom
  seqTo := g.seqTo
  viewHash := material.viewHash
  chunks := material.chunks
  vectors := material.vectors
  embeddingReceipt := material.embeddingReceipt

namespace Indexed
variable (host : IndexHost)

def step (x : Indexed) : IndexMove → Indexed
  | .event e => { x with agent := x.agent.step host.agent e }
  | .enqueue groupId =>
    match host.captured x.agent with
    | .error _ => x
    | .ok snapshot =>
      { x with jobs := x.jobs ++
        snapshot.groups.filter fun g => g.indexable && decide (g.groupId = groupId) }
  | .generation row =>
    { x with partition := { x.partition with
      generations := set x.partition.generations row.indexGeneration row } }
  | .process job material =>
    match x.jobs[job]? with
    | none => x
    | some g =>
      match x.partition.materializeGroup (g.batch material) with
      | .error _ => x
      | .ok done => { x with partition := done.1 }

abbrev run (x : Indexed) (moves : List IndexMove) : Indexed := Transitions.run (step host) x moves

def Careful (x : Indexed) : List IndexMove → Prop
  | [] => True
  | .enqueue groupId :: rest =>
    host.AtRest x.agent groupId ∧ Careful (x.step host (.enqueue groupId)) rest
  | move :: rest => Careful (x.step host move) rest

variable {host}

/-- The source of a group is that of its rows, and no row will join them. -/
def Final (host : IndexHost) (s : AgentState) (groupId sourceHash : String) : Prop :=
  (∀ m, groupId = host.agent.providerTurn m → m < s.ordinal ∨ (m = s.ordinal ∧ s.phase = .ready)) ∧
    groupRows s.journal.rows groupId ≠ [] ∧
    sourceHash = host.hashOf (groupRows s.journal.rows groupId)

structure Settled (host : IndexHost) (x : Indexed) : Prop where
  sound : x.agent.Sound host.agent
  jobs : ∀ g ∈ x.jobs, Final host x.agent g.groupId g.sourceHash
  sources : ∀ groupId row, x.partition.groupSource groupId = some row →
    Final host x.agent groupId row.sourceHash

theorem Final.grows {s t : AgentState} {groupId sourceHash : String}
    (final : Final host s groupId sourceHash) (grows : s.Grows host.agent t) :
    Final host t groupId sourceHash := by
  obtain ⟨past, some_row, hash⟩ := final
  have rest : host.AtRest s groupId := by
    by_cases turn : groupId = host.agent.providerTurn s.ordinal
    · rcases past s.ordinal turn with less | ⟨_, ready⟩
      · exact absurd less (lt_irrefl _)
      · exact Or.inl ready
    · exact Or.inr turn
  have rows := grows.groupRows_eq rest some_row
  refine ⟨?_, by rw [rows]; exact some_row, by rw [rows]; exact hash⟩
  intro m turn
  have low := grows.ordinal
  rcases past m turn with less | ⟨same, ready⟩
  · exact Or.inl (by omega)
  · by_cases still : t.ordinal = s.ordinal
    · exact Or.inr ⟨by omega, grows.idle ready still⟩
    · exact Or.inl (by omega)

theorem step_settled {x : Indexed} (settled : x.Settled host) (move : IndexMove)
    (careful : ∀ groupId, move = .enqueue groupId → host.AtRest x.agent groupId) :
    (x.step host move).Settled host := by
  cases move with
  | event e =>
    have grows := AgentState.step_grows settled.sound e
    exact ⟨AgentState.step_sound settled.sound e, fun g inside => (settled.jobs g inside).grows grows,
      fun groupId row found => (settled.sources groupId row found).grows grows⟩
  | enqueue groupId =>
    have rest := careful groupId rfl
    unfold step
    dsimp only
    split
    · exact settled
    · rename_i snapshot done
      refine ⟨settled.sound, ?_, settled.sources⟩
      intro g inside
      rcases List.mem_append.mp inside with old | new
      · exact settled.jobs g old
      · simp only [List.mem_filter, Bool.and_eq_true, decide_eq_true_eq] at new
        obtain ⟨listed, _, same⟩ := new
        obtain ⟨records, some_row⟩ := captured_rows done listed
        refine ⟨?_, records ▸ some_row, ?_⟩
        · intro m turn
          change m < x.agent.ordinal ∨ (m = x.agent.ordinal ∧ x.agent.phase = .ready)
          have member := List.head_mem some_row
          have row : g.records.head some_row ∈ groupRows x.agent.journal.rows g.groupId :=
            records ▸ member
          simp only [groupRows, List.mem_filter, decide_eq_true_eq] at row
          obtain ⟨⟨stored, kind⟩, own⟩ := row
          rcases settled.sound.placed _ stored kind with ⟨name, _, group, _⟩ | ⟨n, low, group⟩
          · exact absurd (group.symm.trans (own.trans turn))
              (AgentHost.user_ne_providerTurn name m)
          · have equal := AgentHost.providerTurn_inj (group.symm.trans (own.trans turn))
            rcases rest with ready | apart
            · by_cases current : m = x.agent.ordinal
              · exact Or.inr ⟨current, ready⟩
              · exact Or.inl (by omega)
            · left
              by_contra high
              have current : m = x.agent.ordinal := by omega
              rw [current] at turn
              exact apart (same.symm.trans turn)
        · rw [captured_hash done listed, records]
  | generation row => exact ⟨settled.sound, settled.jobs, settled.sources⟩
  | process job material =>
    unfold step
    dsimp only
    split
    · exact settled
    · rename_i g found
      split
      · exact settled
      · rename_i done written
        refine ⟨settled.sound, settled.jobs, ?_⟩
        intro groupId row source
        rcases @Partition.materialize_sources _ _ _ done.2 written _ _ source with
          old | ⟨own, hash⟩
        · exact settled.sources groupId row old
        · have final := settled.jobs g (List.mem_of_getElem? found)
          rw [own, hash]
          exact final

theorem run_settled {x : Indexed} (settled : x.Settled host) (moves : List IndexMove)
    (careful : x.Careful host moves) : (x.run host moves).Settled host := by
  induction moves generalizing x with
  | nil => exact settled
  | cons move rest ih =>
    cases move with
    | event e => exact ih (step_settled settled _ fun _ other => by cases other) careful
    | enqueue groupId =>
      apply ih (step_settled settled _ _) careful.2
      intro groupId' same
      cases same
      exact careful.1
    | generation row => exact ih (step_settled settled _ fun _ other => by cases other) careful
    | process job material =>
      exact ih (step_settled settled _ fun _ other => by cases other) careful

theorem start_settled : Indexed.start.Settled host :=
  ⟨AgentState.start_sound, fun _ none => (nomatch none), fun _ _ none => (nomatch none)⟩

theorem process_unconflicted {x : Indexed} (settled : x.Settled host) {g : GroupView}
    (inside : g ∈ x.jobs) (material : Material) :
    x.partition.materializeGroup (g.batch material) ≠ .error (.arp "GROUP_HASH_CONFLICT") := by
  intro conflict
  obtain ⟨row, source, different⟩ := (Partition.materialize_conflict _ _).mp conflict
  apply different
  have stored := (settled.sources g.groupId row source).2.2
  have mine := (settled.jobs g inside).2.2
  exact stored.trans mine.symm

end Indexed

def plainIndexHost : IndexHost where
  agent := {
    runId := "a"
    contentHash := fun _ => ""
    large := fun _ => false
    preview := fun _ _ => .text "" }
  sessionId := "s"
  digest := fun refs => toString refs.length
  charge := fun _ => 0

def plainMessage (role : MessageRole) : Message := ⟨role, .text "m", none, none, []⟩

def asked : List Event :=
  [.user "a:input:1" (plainMessage .user), .reserve, .respond ["c"],
    .assistant (plainMessage .assistant)]

def answered : List Event := [.effect, .result "t" (.text "r"), .advance, .finish]

def plainMaterial : Material := ⟨⟨1, "v", "c", "e", .ready, 1⟩, "v", [], none, false⟩

def GroupSnapshot.sources (snapshot : GroupSnapshot) : List (String × Nat × Nat × String × Bool) :=
  snapshot.groups.map fun g => (g.groupId, g.seqFrom, g.seqTo, g.sourceHash, g.indexable)

/-- The group becomes a job while its turn is in progress, and again when it is over. -/
def earlyMoves : List IndexMove :=
  [.generation plainMaterial.generation] ++ asked.map .event ++
    [.enqueue "a:provider-turn:1", .process 0 plainMaterial] ++ answered.map .event ++
    [.enqueue "a:provider-turn:1"]

theorem exists_of_isSome {ε α : Type} {x : Except ε α} (done : x.toOption.isSome = true) :
    ∃ a, x = .ok a := by
  cases x with
  | ok a => exact ⟨a, rfl⟩
  | error e => cases done

end AgentContext
