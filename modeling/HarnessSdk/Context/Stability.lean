import HarnessSdk.Context.Turns

/-! Which rows can join a group later: none, unless its provider turn is in progress. -/
namespace AgentContext
open PyDict PyText

namespace AgentHost
variable {host : AgentHost}

theorem providerTurn_inj {m n : Nat} (same : host.providerTurn m = host.providerTurn n) :
    m = n := by
  have keyed : ∀ k, host.providerTurn k = host.runId ++ ":provider-turn" ++ ":" ++ toString k := by
    intro k
    have sep : ":provider-turn:" = ":provider-turn" ++ ":" := rfl
    rw [providerTurn, sep, ← String.append_assoc]
  rw [keyed, keyed] at same
  exact (keyed_inj same).2

theorem user_ne_providerTurn (name : String) (n : Nat) :
    host.appendText (.user name) ≠ host.providerTurn n := by
  intro same
  have last := congrArg (fun text => text.toList.getLast?) same
  have left : (host.appendText (.user name)).toList.getLast? = some 'r' := by
    simp [appendText, String.toList_append]
  have digits : (toString n).toList ≠ [] := by simp
  have right : (host.providerTurn n).toList.getLast? = (toString n).toList.getLast? := by
    rw [providerTurn, String.toList_append, List.getLast?_append_of_ne_nil _ digits]
  rw [left, right] at last
  have inside := List.mem_of_getLast? last.symm
  have digit := Nat.isDigit_of_mem_toDigits (c := 'r') (b := 10) (n := n) (by decide) (by decide)
    (by simpa using inside)
  exact absurd digit (by decide)

end AgentHost

namespace AgentState
variable {host : AgentHost} {s t u : AgentState}

/-- Each row stands in the group of its input or of a provider turn so far. -/
structure Sound (host : AgentHost) (s : AgentState) : Prop where
  placed : ∀ r ∈ s.journal.rows, r.kind ≠ .instructions →
    (∃ name, .user name ∈ s.appends ∧ r.protocolGroupId = host.appendText (.user name) ∧
      r.kind ≠ .assistant) ∨
    ∃ m, m ≤ s.ordinal ∧ r.protocolGroupId = host.providerTurn m

def Allowed (s : AgentState) : AppendId → Prop
  | .instructions => True
  | .user _ => True
  | .assistant n => n = s.ordinal ∧ s.phase ≠ .ready
  | .result n _ _ => n = s.ordinal ∧ s.phase ≠ .ready
  | .mandatoryFeedback n => n = s.ordinal ∧ s.phase ≠ .ready

def Classified (host : AgentHost) (appendId : AppendId) (entries : List Entry) : Prop :=
  ∀ e ∈ entries, e.kind = (host.classify appendId).1 ∧
    e.protocolGroupId = (host.classify appendId).2.2

structure Moves (s t : AgentState) : Prop where
  journal : t.journal = s.journal
  appends : t.appends = s.appends
  turn : (t.ordinal = s.ordinal ∧ (s.phase = .ready → t.phase = .ready)) ∨
    (s.phase = .ready ∧ t.ordinal = s.ordinal + 1)

theorem classified_shown (appendId : AppendId) (message : Message) :
    Classified host appendId [shown host appendId message] := by
  intro e inside
  rw [List.mem_singleton.mp inside]
  exact ⟨rfl, rfl⟩

theorem classified_result (s : AgentState) (ordinal : Nat) (call : String) (callOrdinal : Nat)
    (message : Message) :
    Classified host (.result ordinal call callOrdinal)
      (s.resultEntries host ordinal call callOrdinal message) := by
  intro e inside
  unfold resultEntries at inside
  dsimp only at inside
  split at inside
  · simp only [List.mem_cons, List.not_mem_nil, or_false] at inside
    rcases inside with rfl | rfl <;> exact ⟨rfl, rfl⟩
  · rw [List.mem_singleton.mp inside]
    exact ⟨rfl, rfl⟩

theorem classified_instructions (messages : List Message) :
    Classified host .instructions (messages.map (shown host .instructions)) := by
  intro e inside
  obtain ⟨message, _, rfl⟩ := List.mem_map.mp inside
  exact ⟨rfl, rfl⟩

/-- What an event can do: nothing, or one thing, where the state allows it. -/
inductive Steps (host : AgentHost) (s : AgentState) : Event → AgentState → Prop
  | same {e} : Steps host s e s
  | instructions {messages} : s.journal.rows = [] →
    Steps host s (.instructions messages)
      (s.append host .instructions (messages.map (shown host .instructions)))
  | user {name message} : Steps host s (.user name message)
      (s.append host (.user name) [shown host (.user name) message])
  | reserve : s.phase = .ready →
    Steps host s .reserve { s with ordinal := s.ordinal + 1, phase := .providerReserved }
  | respond {calls} :
    (s.phase = .providerReserved ∧ calls.Nodup ∧ ∀ c ∈ calls, c ≠ "") →
    Steps host s (.respond calls) { s with phase := .responseReserved calls 0 }
  | assistant {message calls progress} :
    s.phase = .responseReserved calls progress → Steps host s (.assistant message)
      (s.append host (.assistant s.ordinal) [shown host (.assistant s.ordinal) message])
  | effect {calls progress call} :
    s.phase = .responseReserved calls progress → calls[progress]? = some call →
    (.assistant s.ordinal ∈ s.appends ∧ ⟨s.ordinal, progress, call⟩ ∉ s.effects) →
    Steps host s .effect { s with effects := s.effects ++ [⟨s.ordinal, progress, call⟩] }
  | result {name content calls progress call} :
    s.phase = .responseReserved calls progress → calls[progress]? = some call →
    .assistant s.ordinal ∈ s.appends → Steps host s (.result name content)
      (s.append host (.result s.ordinal call progress)
        (s.resultEntries host s.ordinal call progress
          ⟨.tool, content, some name, some call, []⟩))
  | advance {calls progress call} :
    s.phase = .responseReserved calls progress → calls[progress]? = some call →
    .result s.ordinal call progress ∈ s.appends →
    Steps host s .advance { s with phase := .responseReserved calls (progress + 1) }
  | repair : s.phase = .responseReserved [] 0 →
    Steps host s .repair { s with phase := .contextActionReserved }
  | feedback {message} : s.phase = .contextActionReserved →
    Steps host s (.feedback message) (s.append host (.mandatoryFeedback s.ordinal)
      [shown host (.mandatoryFeedback s.ordinal) message])
  | repaired : (s.phase = .contextActionReserved ∧ .mandatoryFeedback s.ordinal ∈ s.appends) →
    Steps host s .repaired { s with phase := .ready }
  | finish {calls progress} : s.phase = .responseReserved calls progress →
    (progress = calls.length ∧ .assistant s.ordinal ∈ s.appends) →
    Steps host s .finish { s with phase := .ready }
  | settle : Steps host s .settle { s with phase := .ready }
  | turnEnded {turnId} :
    Steps host s (.turnEnded turnId) { s with ended := s.ended ++ [turnId] }

theorem step_steps (host : AgentHost) (s : AgentState) (e : Event) :
    Steps host s e (s.step host e) := by
  cases e <;> unfold step <;> dsimp only <;> repeat' split
  all_goals first | exact .same | constructor <;> assumption

theorem step_cases (host : AgentHost) (s : AgentState) (e : Event) :
    (∃ appendId entries, s.step host e = s.append host appendId entries ∧
      Classified host appendId entries ∧ s.Allowed appendId) ∨ s.Moves (s.step host e) := by
  have steps := step_steps host s e
  generalize s.step host e = t at steps ⊢
  have moves : ∀ {t : AgentState}, t.journal = s.journal → t.appends = s.appends →
      t.ordinal = s.ordinal → (s.phase = .ready → t.phase = .ready) → s.Moves t :=
    fun journal appends ordinal phase => ⟨journal, appends, Or.inl ⟨ordinal, phase⟩⟩
  cases steps with
  | same | effect | turnEnded => exact Or.inr (moves rfl rfl rfl id)
  | instructions => exact Or.inl ⟨_, _, rfl, classified_instructions _, trivial⟩
  | user => exact Or.inl ⟨_, _, rfl, classified_shown _ _, trivial⟩
  | assistant phase | feedback phase =>
    exact Or.inl ⟨_, _, rfl, classified_shown _ _, rfl, by simp [phase]⟩
  | result phase =>
    exact Or.inl ⟨_, _, rfl, classified_result s _ _ _ _, rfl, by simp [phase]⟩
  | reserve ready => exact Or.inr ⟨rfl, rfl, Or.inr ⟨ready, rfl⟩⟩
  | respond reserved => exact Or.inr (moves rfl rfl rfl (by simp [reserved.1]))
  | advance phase | repair phase => exact Or.inr (moves rfl rfl rfl (by simp [phase]))
  | repaired | finish | settle => exact Or.inr (moves rfl rfl rfl fun _ => rfl)

theorem append_rows (host : AgentHost) (s : AgentState) {appendId : AppendId}
    {entries : List Entry} (classified : Classified host appendId entries) :
    s.append host appendId entries = s ∨
      (appendId ∉ s.appends ∧ (s.append host appendId entries).appends = s.appends ++ [appendId] ∧
        (s.append host appendId entries).ordinal = s.ordinal ∧
        (s.append host appendId entries).phase = s.phase ∧
        (s.append host appendId entries).effects = s.effects ∧
        ∃ new, (s.append host appendId entries).journal.rows = s.journal.rows ++ new ∧
          ∀ r ∈ new, r.kind = (host.classify appendId).1 ∧
            r.protocolGroupId = (host.classify appendId).2.2) := by
  unfold append
  split
  · exact Or.inl rfl
  · rename_i fresh
    refine Or.inr ⟨fresh, rfl, rfl, rfl, rfl, _, rfl, ?_⟩
    intro r inside
    obtain ⟨entry, listed, rfl⟩ := List.mem_map.mp inside
    exact classified entry.1 (List.fst_mem_of_mem_zipIdx listed)

theorem start_sound : AgentState.start.Sound host := ⟨fun _ inside => nomatch inside⟩

theorem step_sound (sound : s.Sound host) (e : Event) : (s.step host e).Sound host := by
  rcases step_cases host s e with ⟨appendId, entries, stepped, classified, allowed⟩ | moves
  · rw [stepped]
    rcases append_rows host s classified with same | ⟨_, appends, ordinal, _, _, new, rows, sorts⟩
    · rw [same]
      exact sound
    · constructor
      intro r inside kind
      rw [rows] at inside
      rw [appends, ordinal]
      rcases List.mem_append.mp inside with old | added
      · rcases sound.placed r old kind with ⟨name, known, group, other⟩ | turn
        · exact Or.inl ⟨name, List.mem_append_left _ known, group, other⟩
        · exact Or.inr turn
      · obtain ⟨sort, group⟩ := sorts r added
        cases appendId with
        | instructions => exact absurd sort kind
        | user name =>
          refine Or.inl ⟨name, by simp, ?_, ?_⟩
          · rw [group, AgentHost.classify]
            split <;> rfl
          · rw [sort, AgentHost.classify]
            split <;> simp
        | assistant n => exact Or.inr ⟨n, le_of_eq allowed.1, group⟩
        | result n call callOrdinal => exact Or.inr ⟨n, le_of_eq allowed.1, group⟩
        | mandatoryFeedback n => exact Or.inr ⟨n, le_of_eq allowed.1, group⟩
  · constructor
    intro r inside kind
    rw [moves.journal] at inside
    rw [moves.appends]
    rcases sound.placed r inside kind with user | ⟨m, low, group⟩
    · exact Or.inl user
    · refine Or.inr ⟨m, ?_, group⟩
      rcases moves.turn with ⟨same, _⟩ | ⟨_, more⟩ <;> omega

structure Grows (host : AgentHost) (s t : AgentState) : Prop where
  ordinal : s.ordinal ≤ t.ordinal
  idle : s.phase = .ready → t.ordinal = s.ordinal → t.phase = .ready
  rows : ∃ new, t.journal.rows = s.journal.rows ++ new ∧ ∀ r ∈ new, r.kind ≠ .instructions →
    (r.protocolGroupId = host.providerTurn s.ordinal ∧ s.phase ≠ .ready) ∨
      groupRows s.journal.rows r.protocolGroupId = []

theorem Grows.refl (host : AgentHost) (s : AgentState) : s.Grows host s :=
  ⟨le_refl _, fun ready _ => ready, [], by simp, by simp⟩

theorem groupRows_eq_nil {records : List Record} {groupId : String} :
    groupRows records groupId = [] ↔
      ∀ r ∈ records, r.kind ≠ .instructions → r.protocolGroupId ≠ groupId := by
  simp only [groupRows, List.filter_eq_nil_iff, List.mem_filter, decide_eq_true_eq]
  constructor
  · intro none r inside kind
    exact none r ⟨inside, kind⟩
  · intro none r inside
    exact none r inside.1 inside.2

theorem groupRows_append (records new : List Record) (groupId : String) :
    groupRows (records ++ new) groupId = groupRows records groupId ++ groupRows new groupId := by
  simp [groupRows]

theorem Sound.later_turn (sound : s.Sound host) {n : Nat} (later : s.ordinal < n) :
    groupRows s.journal.rows (host.providerTurn n) = [] := by
  apply groupRows_eq_nil.mpr
  intro r inside kind same
  rcases sound.placed r inside kind with ⟨name, _, group, _⟩ | ⟨m, low, group⟩
  · exact AgentHost.user_ne_providerTurn name n (group.symm.trans same)
  · have equal := AgentHost.providerTurn_inj (group.symm.trans same)
    omega

theorem Grows.groupRows_eq (grows : s.Grows host t) {groupId : String}
    (rest : s.phase = .ready ∨ groupId ≠ host.providerTurn s.ordinal)
    (some_row : groupRows s.journal.rows groupId ≠ []) :
    groupRows t.journal.rows groupId = groupRows s.journal.rows groupId := by
  obtain ⟨new, rows, fits⟩ := grows.rows
  have none_new : groupRows new groupId = [] := by
    apply groupRows_eq_nil.mpr
    intro r inside kind same
    rcases fits r inside kind with ⟨turn, busy⟩ | fresh
    · rcases rest with ready | apart
      · exact busy ready
      · exact apart (same.symm.trans turn)
    · rw [same] at fresh
      exact some_row fresh
  rw [rows, groupRows_append, none_new, List.append_nil]

theorem Grows.trans (sound : s.Sound host) (first : s.Grows host t) (second : t.Grows host u) :
    s.Grows host u := by
  obtain ⟨new, rows, fits⟩ := first.rows
  obtain ⟨new', rows', fits'⟩ := second.rows
  refine ⟨first.ordinal.trans second.ordinal, ?_, new ++ new', ?_, ?_⟩
  · intro ready same
    have low := first.ordinal
    have high := second.ordinal
    exact second.idle (first.idle ready (by omega)) (by omega)
  · rw [rows', rows, List.append_assoc]
  · intro r inside kind
    rcases List.mem_append.mp inside with early | late
    · exact fits r early kind
    · rcases fits' r late kind with ⟨group, busy⟩ | fresh
      · by_cases same : t.ordinal = s.ordinal
        · rw [same] at group
          exact Or.inl ⟨group, fun ready => busy (first.idle ready same)⟩
        · have low := first.ordinal
          rw [group]
          exact Or.inr (sound.later_turn (by omega))
      · rw [rows, groupRows_append, List.append_eq_nil_iff] at fresh
        exact Or.inr fresh.1

theorem step_grows (sound : s.Sound host) (e : Event) : s.Grows host (s.step host e) := by
  rcases step_cases host s e with ⟨appendId, entries, stepped, classified, allowed⟩ | moves
  · rw [stepped]
    rcases append_rows host s classified with
      same | ⟨fresh, _, ordinal, phase, _, new, rows, sorts⟩
    · rw [same]
      exact .refl host s
    · refine ⟨le_of_eq ordinal.symm, fun ready _ => phase.trans ready, new, rows, ?_⟩
      intro r inside kind
      obtain ⟨sort, group⟩ := sorts r inside
      cases appendId with
      | instructions => exact absurd sort kind
      | user name =>
        have own : r.protocolGroupId = host.appendText (.user name) := by
          rw [group, AgentHost.classify]
          split <;> rfl
        -- the group of an input is its append id, and no row was appended under it
        refine Or.inr (groupRows_eq_nil.mpr ?_)
        intro t listed kind' same
        rcases sound.placed t listed kind' with ⟨name', known, group', _⟩ | ⟨m, _, group'⟩
        · have names : name' = name := by
            have texts : name' ++ ":context:user" = name ++ ":context:user" :=
              group'.symm.trans (same.trans own)
            exact String.append_left_inj _ |>.mp texts
          rw [names] at known
          exact fresh known
        · exact AgentHost.user_ne_providerTurn name m
            (own.symm.trans (same.symm.trans group'))
      | assistant n =>
        rw [allowed.1] at group
        exact Or.inl ⟨group, allowed.2⟩
      | result n call callOrdinal =>
        rw [allowed.1] at group
        exact Or.inl ⟨group, allowed.2⟩
      | mandatoryFeedback n =>
        rw [allowed.1] at group
        exact Or.inl ⟨group, allowed.2⟩
  · refine ⟨?_, ?_, [], by rw [moves.journal, List.append_nil], by simp⟩
    · rcases moves.turn with ⟨same, _⟩ | ⟨_, more⟩ <;> omega
    · intro ready same
      rcases moves.turn with ⟨_, stays⟩ | ⟨_, more⟩
      · exact stays ready
      · omega

theorem run_sound (sound : s.Sound host) (events : List Event) : (s.run host events).Sound host :=
  Transitions.run_keeps (Sound host) (fun _ e sound => step_sound sound e) sound events

theorem run_grows (sound : s.Sound host) (events : List Event) :
    s.Grows host (s.run host events) := by
  induction events generalizing s with
  | nil => exact .refl host s
  | cons e rest ih =>
    exact (step_grows sound e).trans sound (ih (step_sound sound e))

end AgentState

/-- At every point of a run each row stands in the group of its input or of a provider turn; what
follows is appended, to the turn in progress or to groups that had no rows. -/
theorem journal_appends (host : AgentHost) (before later : List Event) :
    let s := AgentState.start.run host before
    let t := AgentState.start.run host (before ++ later)
    s.Sound host ∧ s.Grows host t := by
  intro s t
  have sound : s.Sound host := AgentState.run_sound AgentState.start_sound before
  have joined : t = s.run host later := Transitions.run_append ..
  rw [joined]
  exact ⟨sound, AgentState.run_grows sound later⟩

end AgentContext
