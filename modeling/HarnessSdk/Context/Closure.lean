import HarnessSdk.Context.Batches
import HarnessSdk.Context.Sources

/-! When the group of an answered batch closes. -/
namespace AgentContext
open PyDict

variable {effects : List EffectRow} {n : Nat}

theorem mem_issuedCalls {c : String} :
    c ∈ issuedCalls effects n ↔ ∃ e ∈ effects, e.turnOrdinal = n ∧ e.rawCallId = c := by
  simp only [issuedCalls, List.mem_map, List.mem_insertionSort, List.mem_filter,
    decide_eq_true_eq, and_assoc]

theorem issuedCalls_eq_nil : issuedCalls effects n = [] ↔ ∀ e ∈ effects, e.turnOrdinal ≠ n := by
  constructor
  · intro empty e inside own
    have listed := mem_issuedCalls.mpr ⟨e, inside, own, rfl⟩
    rw [empty] at listed
    cases listed
  · intro others
    apply List.eq_nil_iff_forall_not_mem.mpr
    intro c listed
    obtain ⟨e, inside, own, _⟩ := mem_issuedCalls.mp listed
    exact others e inside own

theorem answersAll_iff {issued answered : List String} :
    answersAll issued answered = true ↔
      (∀ c, c ∈ issued ↔ c ∈ answered) ∧ answered.Nodup := by
  simp only [answersAll, Bool.and_eq_true, List.all_eq_true, decide_eq_true_eq]
  constructor
  · intro all
    exact ⟨fun c => ⟨all.1.1 c, all.1.2 c⟩, all.2⟩
  · intro same
    exact ⟨⟨fun c => (same.1 c).mp, fun c => (same.1 c).mpr⟩, same.2⟩

theorem mem_take_iff_lt {calls : List String} (distinct : calls.Nodup) {k : Nat} {c : String}
    (listed : calls[k]? = some c) : c ∈ calls.take n ↔ k < n := by
  obtain ⟨inside, here⟩ := List.getElem?_eq_some_iff.mp listed
  constructor
  · intro early
    obtain ⟨i, bound, same⟩ := List.mem_take_iff_getElem.mp early
    have index := (@List.Nodup.getElem_inj_iff _ _ distinct _ (by omega) _ inside).mp
      (same.trans here.symm)
    omega
  · intro less
    exact List.mem_take_iff_getElem.mpr ⟨k, by omega, here⟩

namespace AgentState
variable {host : AgentHost} {s t : AgentState}

def Closes (host : AgentHost) (s : AgentState) (n : Nat) : Prop :=
  issuedCalls s.effects n = [] ∨
    answersAll (issuedCalls s.effects n)
      (answeredCalls (groupRows s.journal.rows (host.providerTurn n))) = true

/-- No call of the batch has an effect, or just the answered ones have and no result of the turn
is hidden behind a preview. -/
def Matched (host : AgentHost) (s : AgentState) (calls : List String) : Prop :=
  (∀ e ∈ s.effects, e.turnOrdinal ≠ s.ordinal) ∨
    (∀ entry ∈ calls.zipIdx, ⟨s.ordinal, entry.2, entry.1⟩ ∈ s.effects ↔
      .result s.ordinal entry.1 entry.2 ∈ s.appends) ∧
    ∀ r ∈ turnRows host s, r.visibility = .context

theorem InTurn.closes_iff {calls : List String} {progress : Nat} {results : List (String × Bool)}
    (turn : InTurn host s calls progress results) :
    Closes host s s.ordinal ↔ Matched host s calls := by
  unfold Closes Matched
  rw [issuedCalls_eq_nil]
  apply or_congr_right'
  intro some_effect
  change answersAll _ (answeredCalls (turnRows host s)) = true ↔ _
  rw [answersAll_iff, turn.answered]
  have distinct : (results.map Prod.fst).Nodup := by
    rw [turn.taken]
    exact turn.distinct.sublist (List.take_sublist ..)
  have answered : ∀ c, c ∈ results.flatMap copies ↔ c ∈ calls.take results.length := by
    intro c
    rw [mem_flatMap_copies, turn.taken]
  have shown_all : (∀ x ∈ results, x.2 = false) ↔
      ∀ r ∈ turnRows host s, r.visibility = .context := by
    have hidden := not_congr turn.hidden
    simp only [not_exists, not_and, Bool.not_eq_true] at hidden
    rw [← hidden]
    apply forall₂_congr
    intro r _
    cases r.visibility <;> simp
  have issued : ∀ k c, calls[k]? = some c →
      (c ∈ issuedCalls s.effects s.ordinal ↔ ⟨s.ordinal, k, c⟩ ∈ s.effects) := by
    intro k c listed
    rw [mem_issuedCalls]
    constructor
    · intro found
      obtain ⟨e, inside, own, same⟩ := found
      have place := turn.issued e inside own
      rw [same, ← listed] at place
      obtain ⟨bound, _⟩ := List.getElem?_eq_some_iff.mp (place.trans listed)
      have index := (List.getElem?_inj bound turn.distinct).mp place
      rw [← own, ← same, ← index]
      exact inside
    · intro inside
      exact ⟨_, inside, rfl, rfl⟩
  rw [flatMap_copies_nodup distinct, shown_all]
  apply and_congr_left'
  constructor
  · intro same entry inside
    have listed := List.mem_zipIdx_iff_getElem?.mp inside
    rw [← issued _ _ listed, same, answered, mem_take_iff_lt turn.distinct listed,
      turn.known _ _ listed]
  · intro same c
    rw [answered]
    by_cases member : c ∈ calls
    · obtain ⟨k, listed⟩ := List.mem_iff_getElem?.mp member
      rw [issued k c listed, mem_take_iff_lt turn.distinct listed, ← turn.known k c listed]
      exact same (c, k) (List.mem_zipIdx_iff_getElem?.mpr listed)
    · constructor
      · intro found
        obtain ⟨e, inside, own, name⟩ := mem_issuedCalls.mp found
        exact absurd (name ▸ List.mem_of_getElem? (turn.issued e inside own)) member
      · intro early
        exact absurd (List.mem_of_mem_take early) member

variable {n : Nat}

theorem Closes.of_same (closes : Closes host s n) (effects : t.effects = s.effects)
    (rows : groupRows t.journal.rows (host.providerTurn n) = groupRows s.journal.rows
      (host.providerTurn n)) : Closes host t n := by
  unfold Closes at closes ⊢
  rw [effects, rows]
  exact closes

theorem closes_of_none (others : ∀ e ∈ s.effects, e.turnOrdinal ≠ n) :
    Closes host s n := Or.inl (issuedCalls_eq_nil.mpr others)

def Over (s : AgentState) (n : Nat) : Prop :=
  n < s.ordinal ∨
    n = s.ordinal ∧ (s.phase = .ready ∨ ∃ calls, s.phase = .responseReserved calls calls.length)

structure Tidy (host : AgentHost) (s : AgentState) : Prop where
  kept : Kept host s
  closes : ∀ n, s.Over n → Closes host s n

/-- A batch goes on, or is given up, only where ledger and results match. -/
def Careful (host : AgentHost) (s : AgentState) (e : Event) : Prop :=
  match s.phase, e with
  | .responseReserved calls _, .advance => Matched host s calls
  | .responseReserved calls _, .settle => Matched host s calls
  | _, _ => True

theorem step_effects (host : AgentHost) (s : AgentState) (e : Event) :
    (s.step host e).effects = s.effects ∨
      s.phase ≠ .ready ∧ ∃ x, (s.step host e).effects = s.effects ++ [x] ∧
        x.turnOrdinal = s.ordinal := by
  have steps := step_steps host s e
  generalize s.step host e = t at steps ⊢
  cases steps with
  | effect phase => exact Or.inr ⟨by rw [phase]; simp, _, rfl, rfl⟩
  | instructions | user | assistant | result | feedback => exact Or.inl (append_fields ..).2.2
  | _ => exact Or.inl rfl

theorem step_closes_past (sound : s.Sound host) (e : Event)
    (past : s.phase = .ready ∨ n ≠ s.ordinal) (closes : Closes host s n) :
    Closes host (s.step host e) n := by
  have issued : issuedCalls (s.step host e).effects n = issuedCalls s.effects n := by
    rcases step_effects host s e with same | ⟨busy, x, added, own⟩
    · rw [same]
    · have other : x.turnOrdinal ≠ n := by
        rcases past with ready | apart
        · exact absurd ready busy
        · omega
      rw [added, issuedCalls, List.filter_append, List.filter_cons_of_neg (by simpa using other)]
      simp [issuedCalls]
  unfold Closes at closes ⊢
  rw [issued]
  by_cases empty : groupRows s.journal.rows (host.providerTurn n) = []
  · rw [empty] at closes
    rcases closes with nothing | all
    · exact Or.inl nothing
    · refine Or.inl (List.eq_nil_iff_forall_not_mem.mpr ?_)
      intro c listed
      cases ((answersAll_iff.mp all).1 c).mp listed
  · have apart : s.phase = .ready ∨ host.providerTurn n ≠ host.providerTurn s.ordinal :=
      past.imp_right fun other same => other (AgentHost.providerTurn_inj same)
    rw [(step_grows sound e).groupRows_eq apart empty]
    exact closes

theorem over_low (passed : s.Over n) : n ≤ s.ordinal :=
  passed.elim Nat.le_of_lt fun here => here.1.le

theorem over_append {appendId : AppendId} {entries : List Entry} :
    (s.append host appendId entries).Over n ↔ s.Over n := by
  obtain ⟨ordinal, phase, _⟩ := append_fields host s appendId entries
  rw [Over, Over, ordinal, phase]

theorem step_tidy (tidy : Tidy host s) {e : Event} (careful : Careful host s e) :
    Tidy host (s.step host e) := by
  refine ⟨step_kept tidy.kept e, ?_⟩
  intro n passed
  by_cases past : n < s.ordinal ∨ n = s.ordinal ∧ s.phase = .ready
  · apply step_closes_past tidy.kept.sound e
    · rcases past with less | ⟨_, ready⟩
      · exact Or.inr (by omega)
      · exact Or.inl ready
    · exact tidy.closes n (past.imp_right fun both => ⟨both.1, Or.inl both.2⟩)
  · have current : s.Over n → n = s.ordinal ∧
        ∃ calls, s.phase = .responseReserved calls calls.length := by
      intro here
      rcases here with less | ⟨same, ready | whole⟩
      · exact absurd (Or.inl less) past
      · exact absurd (Or.inr ⟨same, ready⟩) past
      · exact ⟨same, whole⟩
    have late : s.ordinal ≤ n := by
      by_contra low
      exact past (Or.inl (by omega))
    have turned := tidy.kept.turned
    unfold Turned at turned
    have steps := step_steps host s e
    generalize s.step host e = t at steps passed ⊢
    cases steps with
    | same | turnEnded => exact tidy.closes n passed
    | instructions =>
      obtain ⟨same, _⟩ := current (over_append.mp passed)
      apply (tidy.closes n (over_append.mp passed)).of_same (append_fields ..).2.2
      rw [same]
      exact turnRows_beside (classified_instructions _) (Or.inl rfl)
    | user =>
      obtain ⟨same, _⟩ := current (over_append.mp passed)
      apply (tidy.closes n (over_append.mp passed)).of_same (append_fields ..).2.2
      rw [same]
      exact turnRows_beside (classified_shown _ _) (Or.inr (user_apart _ _))
    | reserve ready =>
      rcases passed with less | ⟨_, impossible | ⟨calls, impossible⟩⟩
      · dsimp only at less
        exact absurd (Or.inr ⟨by omega, ready⟩) past
      · cases impossible
      · cases impossible
    | respond reserved =>
      rw [reserved.1] at turned
      have upper := over_low passed
      obtain rfl : n = s.ordinal := upper.antisymm late
      exact closes_of_none turned.2.1
    | assistant phase =>
      obtain ⟨same, whole, at_whole⟩ := current (over_append.mp passed)
      rw [phase] at turned at_whole
      obtain ⟨results, turn⟩ := turned
      rcases turn.headed with ⟨_, _, _, no_effect⟩ | ⟨present, _⟩
      · apply closes_of_none
        rw [(append_fields ..).2.2, same]
        exact no_effect
      · rw [append, if_pos present]
        exact tidy.closes n (over_append.mp passed)
    | effect phase listed =>
      obtain ⟨_, whole, at_whole⟩ := current passed
      rw [phase] at at_whole
      cases at_whole
      simp at listed
    | result phase listed =>
      obtain ⟨_, whole, at_whole⟩ := current (over_append.mp passed)
      rw [phase] at at_whole
      cases at_whole
      simp at listed
    | advance phase =>
      unfold Careful at careful
      rw [phase] at careful turned
      obtain ⟨results, turn⟩ := turned
      have upper := over_low passed
      obtain rfl : n = s.ordinal := upper.antisymm late
      exact turn.closes_iff.mpr careful
    | repair =>
      rcases passed with less | ⟨_, impossible | ⟨calls, impossible⟩⟩
      · exact absurd (Or.inl less) past
      · cases impossible
      · cases impossible
    | feedback phase =>
      obtain ⟨_, whole, at_whole⟩ := current (over_append.mp passed)
      rw [phase] at at_whole
      cases at_whole
    | repaired done =>
      rw [done.1] at turned
      have upper := over_low passed
      obtain rfl : n = s.ordinal := upper.antisymm late
      exact closes_of_none turned
    | @finish calls _ phase done =>
      have whole : s.phase = .responseReserved calls calls.length := by rw [phase, done.1]
      exact tidy.closes n (passed.imp_right fun both => ⟨both.1, Or.inr ⟨calls, whole⟩⟩)
    | settle =>
      have upper := over_low passed
      obtain rfl : n = s.ordinal := upper.antisymm late
      unfold Careful at careful
      cases phase : s.phase with
      | ready => exact absurd (Or.inr ⟨rfl, phase⟩) past
      | providerReserved =>
        rw [phase] at turned
        exact closes_of_none turned.2.1
      | responseReserved calls progress =>
        rw [phase] at turned careful
        obtain ⟨results, turn⟩ := turned
        exact turn.closes_iff.mpr careful
      | contextActionReserved =>
        rw [phase] at turned
        exact closes_of_none turned

theorem start_tidy : Tidy host .start := by
  refine ⟨start_kept, ?_⟩
  intro n _
  exact closes_of_none fun _ none => (nomatch none)

theorem run_tidy (tidy : Tidy host s) {events : List Event}
    (careful : Transitions.Each (step host) (Careful host) s events) :
    Tidy host (s.run host events) := by
  have keeps : ∀ s e, Tidy host s → Careful host s e → Tidy host (step host s e) :=
    fun _ _ tidy careful => step_tidy tidy careful
  exact Transitions.Each.run_keeps keeps tidy careful

theorem Tidy.in_progress (tidy : Tidy host s) (low : n ≤ s.ordinal) (opened : ¬ Closes host s n) :
    n = s.ordinal ∧ ∃ calls progress, s.phase = .responseReserved calls progress ∧
      progress < calls.length := by
  have not_over : ¬ s.Over n := fun passed => opened (tidy.closes n passed)
  have same : n = s.ordinal := by
    have upper : ¬ n < s.ordinal := fun less => not_over (Or.inl less)
    omega
  have turned := tidy.kept.turned
  unfold Turned at turned
  refine ⟨same, ?_⟩
  cases phase : s.phase with
  | ready => exact absurd (Or.inr ⟨same, Or.inl phase⟩) not_over
  | providerReserved =>
    rw [phase] at turned
    exact absurd (closes_of_none (same ▸ turned.2.1)) opened
  | responseReserved calls progress =>
    rw [phase] at turned
    obtain ⟨results, turn⟩ := turned
    refine ⟨calls, progress, rfl, ?_⟩
    have bounds := turn.counted
    have unfinished : progress ≠ calls.length := by
      intro whole
      exact not_over (Or.inr ⟨same, Or.inr ⟨calls, whole ▸ phase⟩⟩)
    omega
  | contextActionReserved =>
    rw [phase] at turned
    exact absurd (closes_of_none (same ▸ turned)) opened

end AgentState

theorem view_kind {source : CaptureSource} (current : String) (running : Option String)
    (groupId : String) (first : Record) (members : List Record) :
    let g := source.view current running groupId first members
    (g.mandatory = true → g.kind = .userAnchor ∧ g.turnId = current ∨ g.kind = .openTail) ∧
      (g.kind = .openTail → first.kind = .assistant ∧ groupCalls source.effects groupId ≠ [] ∧
        answersAll (groupCalls source.effects groupId) (answeredCalls members) = false) ∧
      (first.kind = .assistant → g.kind ≠ .openTail → g.closed = true ∧ (g.kind = .closedTool ∨
        g.callIds = [] ∧ (g.kind = .terminalAnswer ∨ g.kind = .historyMessage))) := by
  dsimp only
  unfold CaptureSource.view
  dsimp only
  split
  · rename_i input
    refine ⟨fun forced => Or.inl ⟨rfl, by simpa using forced⟩, fun opened => (nomatch opened), ?_⟩
    intro assistant
    rw [input] at assistant
    cases assistant
  · split
    · rename_i assistant
      by_cases nothing : groupCalls source.effects groupId = []
      · refine ⟨?_, ?_, ?_⟩
        · intro forced
          exact Or.inr (by simpa using forced)
        · dsimp only
          rw [if_pos nothing]
          split <;> intro opened <;> cases opened
        · dsimp only
          rw [if_pos nothing]
          intro _ _
          refine ⟨by simp [nothing], Or.inr ⟨nothing, ?_⟩⟩
          split
          · exact Or.inl rfl
          · exact Or.inr rfl
      · cases all : answersAll (groupCalls source.effects groupId) (answeredCalls members) with
        | true => simp [nothing]
        | false => simp [nothing, assistant]
    · rename_i other
      exact ⟨fun forced => (nomatch forced), fun opened => (nomatch opened),
        fun assistant => absurd assistant other⟩

section
variable {host : IndexHost} {s : AgentState} {snapshot : GroupSnapshot}
  (done : host.captured s = .ok snapshot)
include done

theorem captured_open (tidy : AgentState.Tidy host.agent s) {g : GroupView}
    (inside : g ∈ snapshot.groups) (opened : g.kind = .openTail) :
    g.groupId = host.agent.providerTurn s.ordinal ∧ ∃ calls progress,
      s.phase = .responseReserved calls progress ∧ progress < calls.length := by
  obtain ⟨running, first, later, same, rows⟩ := captured_view done inside
  rw [same] at opened
  obtain ⟨assistant, some_call, unanswered⟩ := (view_kind ..).2.1 opened
  have listed : first ∈ groupRows s.journal.rows g.groupId := by
    rw [rows]
    exact List.mem_cons_self
  obtain ⟨present, own⟩ := List.mem_filter.mp listed
  have group : first.protocolGroupId = g.groupId := by simpa using own
  rcases tidy.kept.sound.placed first (List.mem_filter.mp present).1 (by rw [assistant]; simp) with
    ⟨_, _, _, other⟩ | ⟨n, low, turn⟩
  · exact absurd assistant other
  · have named : g.groupId = host.agent.providerTurn n := group.symm.trans turn
    have issued : groupCalls s.effects g.groupId = issuedCalls s.effects n := by
      rw [groupCalls, named, turnOrdinal_providerTurn]
    obtain ⟨here, busy⟩ := tidy.in_progress low (by
      intro closes
      change groupCalls s.effects g.groupId ≠ [] at some_call
      change answersAll (groupCalls s.effects g.groupId) _ = false at unanswered
      rw [issued] at some_call unanswered
      rcases closes with nothing | all
      · exact some_call nothing
      · rw [← named, rows, unanswered] at all
        cases all)
    rw [here] at named
    exact ⟨named, busy⟩

theorem captured_turn (kept : AgentState.Kept host.agent s) {calls : List String} {progress : Nat}
    (phase : s.phase = .responseReserved calls progress)
    (written : .assistant s.ordinal ∈ s.appends) :
    ∃ g ∈ snapshot.groups, g.groupId = host.agent.providerTurn s.ordinal ∧
      (g.kind ≠ .openTail → g.closed = true ∧ (g.kind = .closedTool ∨
        g.callIds = [] ∧ (g.kind = .terminalAnswer ∨ g.kind = .historyMessage))) := by
  have turned := kept.turned
  unfold AgentState.Turned at turned
  rw [phase] at turned
  obtain ⟨results, turn⟩ := turned
  rcases turn.headed with ⟨_, absent, _⟩ | ⟨_, head, rest, whole, assistant⟩
  · exact absurd written absent
  · obtain ⟨g, inside, own⟩ := @captured_of_row _ _ _ done (host.agent.providerTurn s.ordinal)
      (by
        change AgentState.turnRows host.agent s ≠ []
        rw [whole]
        simp)
    obtain ⟨running, first, later, same, rows⟩ := captured_view done inside
    refine ⟨g, inside, own, ?_⟩
    have here : head :: rest = first :: later := by
      rw [← whole, ← rows, own]
      rfl
    rw [List.cons.injEq] at here
    rw [here.1] at assistant
    rw [same]
    exact (view_kind ..).2.2 assistant

end

/-- Where each batch goes on, or is given up, with ledger and results that match, no group stays
open behind it: the open one is that of a batch in progress. -/
theorem answered_groups_close (host : IndexHost) {events : List Event}
    (careful : Transitions.Each (AgentState.step host.agent) (AgentState.Careful host.agent) .start
      events) {snapshot : GroupSnapshot}
    (done : host.captured (AgentState.start.run host.agent events) = .ok snapshot) :
    (∀ g ∈ snapshot.groups, g.mandatory = true →
      g.kind = .userAnchor ∧ g.turnId = snapshot.currentTurnId ∨ g.kind = .openTail) ∧
    (∀ g ∈ snapshot.groups, g.kind = .openTail →
      g.groupId = host.agent.providerTurn (AgentState.start.run host.agent events).ordinal ∧
        ∃ calls progress, (AgentState.start.run host.agent events).phase =
          .responseReserved calls progress ∧ progress < calls.length) ∧
    ∀ calls, (AgentState.start.run host.agent events).phase =
        .responseReserved calls calls.length →
      .assistant (AgentState.start.run host.agent events).ordinal ∈
        (AgentState.start.run host.agent events).appends →
      ∃ g ∈ snapshot.groups,
        g.groupId = host.agent.providerTurn (AgentState.start.run host.agent events).ordinal ∧
          g.closed = true ∧ (g.kind = .closedTool ∨
            g.callIds = [] ∧ (g.kind = .terminalAnswer ∨ g.kind = .historyMessage)) := by
  have tidy := AgentState.run_tidy AgentState.start_tidy careful
  refine ⟨?_, fun g inside => captured_open done tidy inside, ?_⟩
  · intro g inside
    obtain ⟨running, first, later, same, _⟩ := captured_view done inside
    rw [same]
    exact (view_kind ..).1
  · intro calls phase written
    obtain ⟨g, inside, own, closed⟩ := captured_turn done tidy.kept phase written
    refine ⟨g, inside, own, closed ?_⟩
    intro opened
    obtain ⟨_, calls', progress, phase', unfinished⟩ := captured_open done tidy inside opened
    rw [phase] at phase'
    cases phase'
    omega

def GroupSnapshot.kinds (snapshot : GroupSnapshot) : List (String × GroupKind × Bool) :=
  snapshot.groups.map fun g => (g.groupId, g.kind, g.mandatory)

/-- A call that is executed. -/
theorem executed_group_closes :
    ∃ snapshot, plainIndexHost.captured (AgentState.start.run plainIndexHost.agent
        (asked ++ answered)) = .ok snapshot ∧
      ∀ g ∈ snapshot.groups, g.kind ≠ .openTail := by
  obtain ⟨snapshot, done⟩ := exists_of_isSome (x := plainIndexHost.captured
    (AgentState.start.run plainIndexHost.agent (asked ++ answered))) (by decide +kernel)
  have matched : AgentState.Matched plainIndexHost.agent
      (AgentState.start.run plainIndexHost.agent (asked ++ [.effect, .result "t" (.text "r")]))
      ["c"] := Or.inr (by decide +kernel)
  have closes := @answered_groups_close plainIndexHost (asked ++ answered)
    ⟨trivial, trivial, trivial, trivial, trivial, trivial, matched, trivial, trivial⟩ _ done
  refine ⟨snapshot, done, ?_⟩
  intro g inside opened
  obtain ⟨_, calls, progress, phase, _⟩ := closes.2.1 g inside opened
  cases phase

def mixed : List Event :=
  [.user "a:input:1" (plainMessage .user), .reserve, .respond ["c", "d"],
    .assistant (plainMessage .assistant), .effect, .result "t" (.text "r"), .advance,
    .result "t" (.text "rejected"), .advance]

def nextTurn : List Event :=
  [.finish, .turnEnded "a:input:1", .user "a:input:2" (plainMessage .user), .reserve, .respond [],
    .assistant (plainMessage .assistant), .finish]

def largeIndexHost : IndexHost where
  agent := { plainIndexHost.agent with large := fun message => message.role = .tool }
  sessionId := "s"
  digest := plainIndexHost.digest
  charge := plainIndexHost.charge

/-- A mixed batch, and a batch with a large result, stay open and mandatory. -/
theorem answered_group_stays_open :
    (AgentState.start.run plainIndexHost.agent mixed).phase =
      .responseReserved ["c", "d"] ["c", "d"].length ∧
    (plainIndexHost.captured (AgentState.start.run plainIndexHost.agent mixed)).toOption.map
        GroupSnapshot.kinds =
      some [("a:input:1:context:user", .userAnchor, true),
        ("a:provider-turn:1", .openTail, true)] ∧
    (plainIndexHost.captured (AgentState.start.run plainIndexHost.agent
        (mixed ++ nextTurn))).toOption.map GroupSnapshot.kinds =
      some [("a:input:1:context:user", .userAnchor, false),
        ("a:provider-turn:1", .openTail, true), ("a:input:2:context:user", .userAnchor, true),
        ("a:provider-turn:2", .historyMessage, false)] ∧
    (largeIndexHost.captured (AgentState.start.run largeIndexHost.agent
        (asked ++ answered ++ nextTurn))).toOption.map GroupSnapshot.kinds =
      some [("a:input:1:context:user", .userAnchor, false),
        ("a:provider-turn:1", .openTail, true), ("a:input:2:context:user", .userAnchor, true),
        ("a:provider-turn:2", .historyMessage, false)] := by
  refine ⟨?_, ?_, ?_, ?_⟩
  · decide +kernel
  · decide +kernel
  · decide +kernel
  · decide +kernel

end AgentContext
