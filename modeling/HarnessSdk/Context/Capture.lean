import HarnessSdk.Context.Composer
import HarnessSdk.Library.Grouping

/-! The protocol groups of a journal at one high-water mark: closed by the effect ledger and the
results that are journalled, never by the model's text. -/
namespace AgentContext
open PyDict Checks

def OPTIONAL_GROUP_CAP : Nat := 8192

inductive GroupKind
  | userAnchor
  | closedTool
  | openTail
  | terminalAnswer
  | opaqueRequired
  | historyMessage
deriving DecidableEq

structure GroupView where
  groupId : String
  kind : GroupKind
  turnId : String
  records : List Record
  callIds : List String
  resultCallIds : List String
  mandatory : Bool
  closed : Bool
  sourceHash : String
  budgetCharge : Nat

def GroupView.indexable (g : GroupView) : Bool :=
  g.closed && !(g.kind = .openTail || g.kind = .opaqueRequired)

structure EffectRow where
  turnOrdinal : Nat
  callOrdinal : Nat
  rawCallId : String
deriving DecidableEq

/-- What `capture` reads besides the journal, and the functions it is given. -/
structure CaptureSource where
  sessionId : String
  agentId : String
  /-- The digest of record ids with their content hashes. -/
  digest : List (String × String) → String
  charge : Record → Nat
  effects : List EffectRow
  /-- The turns that are committed or failed. -/
  ended : List String

def CaptureSource.recordId (source : CaptureSource) (r : Record) : String :=
  source.agentId ++ ":journal:" ++ toString r.seq

def CaptureSource.sourceHashOf (source : CaptureSource) (records : List Record) : String :=
  source.digest (records.map fun r => (source.recordId r, r.contentHash))

def CaptureSource.chargeOf (source : CaptureSource) (records : List Record) : Nat :=
  ((records.filter (·.visibility = .context)).map source.charge).sum

def callIdOf (r : Record) : Option String := r.message.callId.filter (· ≠ "")

def issuedCalls (effects : List EffectRow) (ordinal : Nat) : List String :=
  ((effects.filter (·.turnOrdinal = ordinal)).insertionSort (·.callOrdinal ≤ ·.callOrdinal)).map
    EffectRow.rawCallId

def firstText (first otherwise : Option String) : Option String :=
  match first.filter (· ≠ "") with
  | some text => some text
  | none => otherwise

def answeredCalls (members : List Record) : List String :=
  (members.filter (·.kind = .toolResult)).filterMap callIdOf

def groupCalls (effects : List EffectRow) (groupId : String) : List String :=
  match turnOrdinal groupId with
  | none => []
  | some ordinal => issuedCalls effects ordinal

/-- `set(issued) == set(answered) and len(set(answered)) == len(answered)` -/
def answersAll (issued answered : List String) : Bool :=
  issued.all (· ∈ answered) && answered.all (· ∈ issued) && decide answered.Nodup

namespace CaptureSource
variable (source : CaptureSource)

def runningAfter (running : Option String) (first : Record) : Option String :=
  if first.kind = .userInput then firstText first.turnId running else running

/-- One group; the second argument is the running turn, that of the latest input before it. -/
def view (current : String) (running : Option String) (groupId : String) (first : Record)
    (members : List Record) : GroupView :=
  let turnId := (firstText (runningAfter running first) (some current)).getD ""
  if first.kind = .userInput then
    { groupId
      kind := .userAnchor
      turnId
      records := members
      callIds := []
      resultCallIds := []
      mandatory := decide (turnId = current)
      closed := true
      sourceHash := source.sourceHashOf members
      budgetCharge := source.chargeOf members }
  else if first.kind = .assistant then
    let issued := groupCalls source.effects groupId
    let answered := answeredCalls members
    let closed := decide (issued = []) || answersAll issued answered
    let kind :=
      if issued = [] then if turnId ∈ source.ended then .terminalAnswer else .historyMessage
      else if closed then .closedTool
      else .openTail
    { groupId
      kind
      turnId
      records := members
      callIds := issued
      resultCallIds := answered
      mandatory := decide (kind = .openTail)
      closed
      sourceHash := source.sourceHashOf members
      budgetCharge := source.chargeOf members }
  else
    { groupId
      kind := .historyMessage
      turnId
      records := members
      callIds := []
      resultCallIds := []
      mandatory := false
      closed := true
      sourceHash := source.sourceHashOf members
      budgetCharge := source.chargeOf members }

def views (current : String) : Option String → List (String × List Record) → List GroupView
  | _, [] => []
  | running, (groupId, members) :: rest =>
    match members.insertionSort (·.seq ≤ ·.seq) with
    | [] => views current running rest
    | first :: later =>
      source.view current running groupId first (first :: later) ::
        views current (runningAfter running first) rest

end CaptureSource

structure GroupSnapshot where
  groups : List GroupView
  instructions : List Record
  highwater : Nat
  currentTurnId : String
  omittedOptionalGroups : Nat

inductive CaptureError
  | journalSourceUnavailable
  | stateCombinationInvalid
  | schema
deriving DecidableEq

def Identifies (text : String) : Prop := 1 ≤ text.length ∧ text.length ≤ 256

instance (text : String) : Decidable (Identifies text) := inferInstanceAs (Decidable (_ ∧ _))

/-- The schema of a group and of its references, where its parts can break them. -/
def CaptureSource.GroupFits (source : CaptureSource) (g : GroupView) : Prop :=
  Identifies ("view:" ++ g.groupId) ∧ Identifies g.groupId ∧ Identifies g.turnId ∧
    g.records.length ≤ 4096 ∧ (∀ r ∈ g.records, Identifies (source.recordId r)) ∧
    g.callIds.length ≤ 256 ∧ (∀ c ∈ g.callIds, Identifies c) ∧
    g.resultCallIds.length ≤ 256 ∧ (∀ c ∈ g.resultCallIds, Identifies c) ∧
    (g.kind = .closedTool → g.callIds.Nodup ∧ Identifies (g.groupId ++ ":closed"))

instance (source : CaptureSource) (g : GroupView) : Decidable (source.GroupFits g) :=
  inferInstanceAs (Decidable (_ ∧ _))

def CaptureSource.SnapshotFits (source : CaptureSource) (snapshot : GroupSnapshot) : Prop :=
  snapshot.groups.length ≤ 8192 ∧
    (snapshot.groups.filter GroupView.mandatory).length ≤ 4096 ∧
    Identifies source.sessionId ∧ Identifies snapshot.currentTurnId ∧
    (∀ g ∈ snapshot.groups, source.GroupFits g) ∧
    ∃ g ∈ snapshot.groups, g.kind = .userAnchor ∧ g.mandatory = true ∧
      g.turnId = snapshot.currentTurnId

instance (source : CaptureSource) (snapshot : GroupSnapshot) :
    Decidable (source.SnapshotFits snapshot) := inferInstanceAs (Decidable (_ ∧ _))

def optionals (views : List GroupView) : List GroupView := views.filter fun g => !g.mandatory

def dropOptional : Nat → List GroupView → List GroupView
  | _, [] => []
  | 0, views => views
  | omitted + 1, g :: rest =>
    if g.mandatory then g :: dropOptional (omitted + 1) rest else dropOptional omitted rest

def kept (views : List GroupView) : List GroupView :=
  dropOptional ((optionals views).length - OPTIONAL_GROUP_CAP) views

def ordered (records : List Record) : List (String × List Record) :=
  group Record.protocolGroupId (records.filter (·.kind ≠ .instructions))

def latestInput (records : List Record) : Option Record :=
  records.reverse.find? (·.kind = .userInput)

/-- `capture` without a turn named by the caller. -/
def CaptureSource.capture (source : CaptureSource) (j : Journal) (highwater : Nat) :
    Except CaptureError GroupSnapshot := do
  let records := j.read 1 highwater
  require (∀ last ∈ records.getLast?, last.seq = highwater) .journalSourceUnavailable
  match (latestInput records).bind fun r => r.turnId.filter (· ≠ "") with
  | none => .error .stateCombinationInvalid
  | some current => do
    let views := source.views current none (ordered records)
    let snapshot : GroupSnapshot := {
      groups := kept views
      instructions := records.filter (·.kind = .instructions)
      highwater
      currentTurnId := current
      omittedOptionalGroups := (optionals views).length - OPTIONAL_GROUP_CAP }
    require (source.SnapshotFits snapshot) .schema
    .ok snapshot

/-! What a capture holds. -/

namespace CaptureSource
variable {source : CaptureSource}

variable (current : String) (running : Option String)

theorem view_groupId (groupId : String) (first : Record) (members : List Record) :
    (source.view current running groupId first members).groupId = groupId := by
  unfold view
  dsimp only
  split
  · rfl
  · split <;> rfl

theorem view_records (current : String) (running : Option String) (groupId : String)
    (first : Record) (members : List Record) :
    (source.view current running groupId first members).records = members ∧
      (source.view current running groupId first members).sourceHash =
        source.sourceHashOf members := by
  unfold view
  dsimp only
  split
  · exact ⟨rfl, rfl⟩
  · split <;> exact ⟨rfl, rfl⟩

def InOrder (entry : String × List Record) : Prop :=
  entry.2 ≠ [] ∧ entry.2.Pairwise fun r t => r.seq < t.seq

theorem insertionSort_seq {members : List Record}
    (order : members.Pairwise fun r t => r.seq < t.seq) :
    members.insertionSort (·.seq ≤ ·.seq) = members :=
  (order.imp fun less => Nat.le_of_lt less).insertionSort_eq

theorem views_entries (current : String) (running : Option String)
    {entries : List (String × List Record)} (order : ∀ entry ∈ entries, InOrder entry) :
    (source.views current running entries).map (fun g => (g.groupId, g.records)) = entries := by
  induction entries generalizing running with
  | nil => rfl
  | cons entry rest ih =>
    obtain ⟨groupId, members⟩ := entry
    obtain ⟨some_row, sorted⟩ := order _ List.mem_cons_self
    have later := fun running => ih running fun entry inside =>
      order entry (List.mem_cons_of_mem _ inside)
    rw [views, insertionSort_seq sorted]
    cases members with
    | nil => exact absurd rfl some_row
    | cons first others =>
      rw [List.map_cons, later, view_groupId, (view_records current running groupId _ _).1]

theorem mem_views {entries : List (String × List Record)}
    (order : ∀ entry ∈ entries, InOrder entry) {g : GroupView}
    (inside : g ∈ source.views current running entries) :
    ∃ running' first later, g = source.view current running' g.groupId first (first :: later) ∧
      g.records = first :: later := by
  induction entries generalizing running with
  | nil => cases inside
  | cons entry rest ih =>
    obtain ⟨groupId, members⟩ := entry
    obtain ⟨some_row, sorted⟩ := order _ List.mem_cons_self
    rw [views, insertionSort_seq sorted] at inside
    cases members with
    | nil => exact absurd rfl some_row
    | cons first others =>
      rcases List.mem_cons.mp inside with here | there
      · refine ⟨running, first, others, ?_, ?_⟩
        · rw [here, view_groupId]
        · rw [here, (view_records current running groupId _ _).1]
      · exact ih _ (fun entry listed => order entry (List.mem_cons_of_mem _ listed)) there

end CaptureSource

variable {source : CaptureSource} {snapshot : GroupSnapshot} (omitted : Nat)

theorem dropOptional_length (views : List GroupView) (enough : omitted ≤ (optionals views).length) :
    (dropOptional omitted views).length + omitted = views.length := by
  induction views generalizing omitted with
  | nil =>
    simp [optionals] at enough
    simp [enough, dropOptional]
  | cons g rest ih =>
    cases omitted with
    | zero => simp [dropOptional]
    | succ n =>
      rw [dropOptional]
      cases forced : g.mandatory with
      | true =>
        have enough' : n + 1 ≤ (optionals rest).length := by simpa [optionals, forced] using enough
        rw [if_pos rfl, List.length_cons, List.length_cons]
        have rest_length := ih (n + 1) enough'
        omega
      | false =>
        have enough' : n ≤ (optionals rest).length := by simpa [optionals, forced] using enough
        rw [if_neg Bool.false_ne_true, List.length_cons]
        have rest_length := ih n enough'
        omega

theorem mem_of_dropOptional {views : List GroupView} {g : GroupView}
    (inside : g ∈ dropOptional omitted views) : g ∈ views := by
  induction views generalizing omitted with
  | nil => cases omitted <;> cases inside
  | cons first rest ih =>
    cases omitted with
    | zero => exact inside
    | succ n =>
      rw [dropOptional] at inside
      split at inside
      · rcases List.mem_cons.mp inside with here | there
        · rw [here]
          exact List.mem_cons_self
        · exact List.mem_cons_of_mem _ (ih (n + 1) there)
      · exact List.mem_cons_of_mem _ (ih n inside)

/-- A snapshot that fits its schema leaves nothing out: with the anchor of the current turn there
is no room for a full count of optional groups. -/
theorem kept_of_fits {views : List GroupView} (groups : snapshot.groups = kept views)
    (fits : source.SnapshotFits snapshot) : snapshot.groups = views := by
  obtain ⟨few, _, _, _, _, anchor, inside, _, forced, _⟩ := fits
  by_cases small : (optionals views).length ≤ OPTIONAL_GROUP_CAP
  · have none_omitted : (optionals views).length - OPTIONAL_GROUP_CAP = 0 := by omega
    rw [groups, kept, none_omitted]
    cases views <;> rfl
  · rw [groups] at few inside
    have length := dropOptional_length ((optionals views).length - OPTIONAL_GROUP_CAP) views
      (by omega)
    have listed := mem_of_dropOptional _ inside
    have fewer : (optionals views).length < views.length :=
      List.length_filter_lt_length_iff_exists.mpr ⟨anchor, listed, by simp [forced]⟩
    unfold kept at few
    unfold OPTIONAL_GROUP_CAP at small few length
    omega

theorem ordered_inOrder {records : List Record}
    (order : records.Pairwise fun r t => r.seq < t.seq) :
    ∀ entry ∈ ordered records, CaptureSource.InOrder entry := by
  intro entry inside
  obtain ⟨some_row, members⟩ := mem_group.mp (show (entry.1, entry.2) ∈ _ from inside)
  refine ⟨some_row, ?_⟩
  rw [← members]
  exact (order.sublist List.filter_sublist).sublist List.filter_sublist

def groupRows (records : List Record) (groupId : String) : List Record :=
  (records.filter (·.kind ≠ .instructions)).filter (·.protocolGroupId = groupId)

theorem Journal.read_all (j : Journal) : j.read 1 j.highwater = j.rows := by
  unfold read
  rw [List.filter_eq_self]
  intro r inside
  have bounds := seq_bounds inside
  rw [highwater_eq]
  simpa using bounds

theorem capture_eq_ok {j : Journal} (done : source.capture j j.highwater = .ok snapshot) :
    snapshot.groups = source.views snapshot.currentTurnId none (ordered j.rows) ∧
      source.SnapshotFits snapshot := by
  unfold CaptureSource.capture at done
  rw [Journal.read_all] at done
  obtain ⟨_, done⟩ := then_eq_ok.mp done
  split at done
  · cases done
  · obtain ⟨fits, done⟩ := then_eq_ok.mp done
    rw [require_eq_ok] at fits
    cases done
    exact ⟨kept_of_fits rfl fits, fits⟩

section
variable {source : CaptureSource} {j : Journal} {snapshot : GroupSnapshot}
  (done : source.capture j j.highwater = .ok snapshot)
include done

variable {g : GroupView}

theorem captured_rows (inside : g ∈ snapshot.groups) :
    g.records = groupRows j.rows g.groupId ∧ g.records ≠ [] := by
  have entries := @CaptureSource.views_entries source snapshot.currentTurnId none _
    (ordered_inOrder j.seq_increases)
  rw [← (capture_eq_ok done).1] at entries
  have listed : (g.groupId, g.records) ∈ ordered j.rows := by
    rw [← entries]
    exact List.mem_map_of_mem (f := fun g : GroupView => (g.groupId, g.records)) inside
  obtain ⟨some_row, members⟩ := mem_group.mp listed
  exact ⟨members.symm, some_row⟩

theorem captured_of_row {groupId : String} (some_row : groupRows j.rows groupId ≠ []) :
    ∃ g ∈ snapshot.groups, g.groupId = groupId := by
  have entries := @CaptureSource.views_entries source snapshot.currentTurnId none _
    (ordered_inOrder j.seq_increases)
  rw [← (capture_eq_ok done).1] at entries
  have listed : (groupId, groupRows j.rows groupId) ∈ ordered j.rows :=
    mem_group.mpr ⟨some_row, rfl⟩
  rw [← entries] at listed
  obtain ⟨g, inside, same⟩ := List.mem_map.mp listed
  exact ⟨g, inside, congrArg Prod.fst same⟩

theorem captured_nodup : (snapshot.groups.map GroupView.groupId).Nodup := by
  have entries := @CaptureSource.views_entries source snapshot.currentTurnId none _
    (ordered_inOrder j.seq_increases)
  rw [← (capture_eq_ok done).1] at entries
  have ids : snapshot.groups.map GroupView.groupId = keys (ordered j.rows) := by
    rw [keys, ← entries, List.map_map]
    rfl
  rw [ids]
  exact keys_group_nodup _ _

theorem captured_view (inside : g ∈ snapshot.groups) :
    ∃ running first later,
      g = source.view snapshot.currentTurnId running g.groupId first (first :: later) ∧
        groupRows j.rows g.groupId = first :: later := by
  have rows := (captured_rows done inside).1
  rw [(capture_eq_ok done).1] at inside
  obtain ⟨running, first, later, same, records⟩ :=
    CaptureSource.mem_views _ _ (ordered_inOrder j.seq_increases) inside
  exact ⟨running, first, later, same, rows ▸ records⟩

end

end AgentContext
