import HarnessSdk.Context.Stability

/-! What the journal and the effect ledger hold of a batch in progress. -/
namespace AgentContext
open PyDict PyText

theorem cutAt_append {c : Char} {sep pre : List Char} (absent : c ∉ pre) (rest : List Char) :
    cutAt (c :: sep) (pre ++ c :: sep ++ rest) = some (pre, rest) := by
  induction pre with
  | nil => simp [cutAt]
  | cons d pre ih =>
    simp only [List.mem_cons, not_or] at absent
    have other : (c == d) = false := by simpa using absent.1
    simp only [List.cons_append, cutAt, List.isPrefixOf, other, Bool.false_and, Bool.false_eq_true,
      if_false]
    rw [List.append_assoc, List.cons_append] at ih
    simp [ih absent.2]

theorem turnOrdinal_providerTurn (host : AgentHost) (n : Nat) :
    turnOrdinal (host.providerTurn n) = some n := by
  have sep : ":provider-turn:".toList.reverse = ':' :: "nrut-redivorp:".toList := by decide
  have chars : (host.providerTurn n).toList.reverse =
      (toString n).toList.reverse ++ ':' :: "nrut-redivorp:".toList ++
        host.runId.toList.reverse := by
    rw [AgentHost.providerTurn, String.toList_append, String.toList_append, List.reverse_append,
      List.reverse_append, sep, List.append_assoc]
  have absent : ':' ∉ (toString n).toList.reverse := by
    rw [List.mem_reverse]
    exact colon_not_mem_repr n
  have last : afterLast ":provider-turn:" (host.providerTurn n) = toString n := by
    rw [afterLast, sep, chars, cutAt_append absent]
    dsimp only
    rw [List.reverse_reverse, String.ofList_toList]
  have number : (toString n).toList = Nat.toDigits 10 n := by simp
  rw [turnOrdinal, last, digits, if_pos ⟨by simp, List.all_eq_true.mpr isDigit_of_mem_repr⟩, number]
  have value := Nat.ofDigitChars_ten_toDigits (n := n)
  rw [Nat.ofDigitChars_eq_foldl] at value
  exact congrArg some value

def copies (x : String × Bool) : List String := if x.2 then [x.1, x.1] else [x.1]

variable {results : List (String × Bool)}

theorem mem_flatMap_copies {c : String} :
    c ∈ results.flatMap copies ↔ c ∈ results.map Prod.fst := by
  simp only [List.mem_flatMap, List.mem_map]
  constructor
  · intro found
    obtain ⟨x, inside, copy⟩ := found
    refine ⟨x, inside, ?_⟩
    unfold copies at copy
    split at copy <;> simp at copy <;> exact copy.symm
  · intro found
    obtain ⟨x, inside, same⟩ := found
    refine ⟨x, inside, ?_⟩
    unfold copies
    split <;> simp [same]

theorem flatMap_copies_nodup (distinct : (results.map Prod.fst).Nodup) :
    (results.flatMap copies).Nodup ↔ ∀ x ∈ results, x.2 = false := by
  induction results with
  | nil => simp
  | cons x rest ih =>
    rw [List.map_cons, List.nodup_cons] at distinct
    have apart : x.1 ∉ rest.flatMap copies := by
      rw [mem_flatMap_copies]
      exact distinct.1
    rw [List.flatMap_cons, List.forall_mem_cons, ← ih distinct.2]
    cases twice : x.2 with
    | true => simp [copies, twice]
    | false => simp [copies, twice, apart]

namespace AgentState
variable {host : AgentHost} {s : AgentState}

def turnRows (host : AgentHost) (s : AgentState) : List Record :=
  groupRows s.journal.rows (host.providerTurn s.ordinal)

/-- A batch in progress: its results so far, each large or not, are those of its first calls. -/
structure InTurn (host : AgentHost) (s : AgentState) (calls : List String) (progress : Nat)
    (results : List (String × Bool)) : Prop where
  distinct : calls.Nodup
  named : ∀ c ∈ calls, c ≠ ""
  taken : results.map Prod.fst = calls.take results.length
  counted : progress ≤ results.length ∧ results.length ≤ calls.length
  known : ∀ k c, calls[k]? = some c →
    (AppendId.result s.ordinal c k ∈ s.appends ↔ k < results.length)
  answered : answeredCalls (turnRows host s) = results.flatMap copies
  hidden : (∃ r ∈ turnRows host s, r.visibility = .journalOnly) ↔ ∃ x ∈ results, x.2 = true
  issued : ∀ e ∈ s.effects, e.turnOrdinal = s.ordinal → calls[e.callOrdinal]? = some e.rawCallId
  headed : (turnRows host s = [] ∧ .assistant s.ordinal ∉ s.appends ∧ results = [] ∧
      ∀ e ∈ s.effects, e.turnOrdinal ≠ s.ordinal) ∨
    .assistant s.ordinal ∈ s.appends ∧
      ∃ first later, turnRows host s = first :: later ∧ first.kind = .assistant

def turnOf : AppendId → Nat
  | .instructions => 0
  | .user _ => 0
  | .assistant n => n
  | .result n _ _ => n
  | .mandatoryFeedback n => n

def Turned (host : AgentHost) (s : AgentState) : Prop :=
  match s.phase with
  | .ready => True
  | .providerReserved => turnRows host s = [] ∧ (∀ e ∈ s.effects, e.turnOrdinal ≠ s.ordinal) ∧
      ∀ id ∈ s.appends, turnOf id ≠ s.ordinal
  | .responseReserved calls progress => ∃ results, InTurn host s calls progress results
  | .contextActionReserved => ∀ e ∈ s.effects, e.turnOrdinal ≠ s.ordinal

structure Kept (host : AgentHost) (s : AgentState) : Prop where
  sound : s.Sound host
  effects : ∀ e ∈ s.effects, e.turnOrdinal ≤ s.ordinal
  appends : ∀ id ∈ s.appends, turnOf id ≤ s.ordinal
  started : s.phase ≠ .ready → 0 < s.ordinal
  turned : Turned host s

theorem start_kept : Kept host .start :=
  ⟨start_sound, fun _ none => (nomatch none), fun _ none => (nomatch none),
    fun busy => absurd rfl busy, trivial⟩

variable {t : AgentState}

theorem turned_beside (turned : Turned host s) (ordinal : t.ordinal = s.ordinal)
    (phase : t.phase = s.phase) (effects : t.effects = s.effects)
    (rows : turnRows host t = turnRows host s)
    (appends : ∀ id ∈ t.appends, id ∈ s.appends ∨ turnOf id = 0)
    (more : ∀ id ∈ s.appends, id ∈ t.appends) (positive : s.phase ≠ .ready → 0 < s.ordinal) :
    Turned host t := by
  unfold Turned at turned ⊢
  rw [phase]
  cases at_phase : s.phase with
  | ready => trivial
  | providerReserved =>
    have here := positive (by rw [at_phase]; simp)
    rw [at_phase] at turned
    rw [effects, ordinal, rows]
    refine ⟨turned.1, turned.2.1, ?_⟩
    intro id inside
    rcases appends id inside with old | zero
    · exact turned.2.2 id old
    · omega
  | responseReserved calls progress =>
    have here := positive (by rw [at_phase]; simp)
    rw [at_phase] at turned
    obtain ⟨results, turn⟩ := turned
    refine ⟨results, turn.distinct, turn.named, turn.taken, turn.counted, ?_, ?_, ?_, ?_, ?_⟩
    · intro k c listed
      rw [ordinal, ← turn.known k c listed]
      constructor
      · intro inside
        rcases appends _ inside with old | zero
        · exact old
        · simp only [turnOf] at zero
          omega
      · exact more _
    · rw [rows, turn.answered]
    · rw [rows, turn.hidden]
    · rw [effects, ordinal]
      exact turn.issued
    · rw [rows, effects, ordinal]
      rcases turn.headed with ⟨empty, absent, nothing, none_issued⟩ | ⟨present, head⟩
      · refine Or.inl ⟨empty, ?_, nothing, none_issued⟩
        intro inside
        rcases appends _ inside with old | zero
        · exact absent old
        · simp only [turnOf] at zero
          omega
      · exact Or.inr ⟨more _ present, head⟩
  | contextActionReserved =>
    rw [at_phase] at turned
    rw [effects, ordinal]
    exact turned

theorem append_fields (host : AgentHost) (s : AgentState) (appendId : AppendId)
    (entries : List Entry) :
    (s.append host appendId entries).ordinal = s.ordinal ∧
      (s.append host appendId entries).phase = s.phase ∧
      (s.append host appendId entries).effects = s.effects := by
  unfold append
  split <;> exact ⟨rfl, rfl, rfl⟩

variable {appendId : AppendId} {entries : List Entry} {calls : List String} {progress : Nat}

theorem append_appends (fresh : appendId ∉ s.appends) :
    (s.append host appendId entries).appends = s.appends ++ [appendId] := by
  rw [append, if_neg fresh]

theorem turnRows_append (host : AgentHost) (s : AgentState)
    (classified : Classified host appendId entries) (fresh : appendId ∉ s.appends) :
    turnRows host (s.append host appendId entries) =
      turnRows host s ++
        if (host.classify appendId).1 ≠ .instructions ∧
            (host.classify appendId).2.2 = host.providerTurn s.ordinal then
          numberedFrom host.contentHash (host.appendText appendId) s.journal.rows.length entries
        else [] := by
  have appended : s.append host appendId entries = { s with
      journal := s.journal.append host.contentHash (host.appendText appendId) entries
      appends := s.appends ++ [appendId] } := if_neg fresh
  have sorts : ∀ r ∈ numberedFrom host.contentHash (host.appendText appendId)
      s.journal.rows.length entries, r.kind = (host.classify appendId).1 ∧
        r.protocolGroupId = (host.classify appendId).2.2 := by
    intro r inside
    obtain ⟨entry, listed, rfl⟩ := List.mem_map.mp inside
    exact classified entry.1 (List.fst_mem_of_mem_zipIdx listed)
  rw [appended, turnRows, turnRows]
  change groupRows (s.journal.rows ++ _) _ = _
  rw [groupRows_append]
  congr 1
  split
  · rename_i own
    rw [groupRows, List.filter_eq_self.mpr, List.filter_eq_self.mpr]
    · intro r inside
      simp [(sorts r inside).1, own.1]
    · intro r inside
      have listed := List.mem_filter.mp inside
      simp [(sorts r listed.1).2, own.2]
  · rename_i other
    apply groupRows_eq_nil.mpr
    intro r inside kind group
    obtain ⟨sort, own⟩ := sorts r inside
    exact other ⟨sort ▸ kind, own ▸ group⟩

theorem turnRows_beside (classified : Classified host appendId entries)
    (apart : (host.classify appendId).1 = .instructions ∨ (host.classify appendId).2.2 ≠
      host.providerTurn s.ordinal) :
    groupRows (s.append host appendId entries).journal.rows (host.providerTurn s.ordinal) =
      groupRows s.journal.rows (host.providerTurn s.ordinal) := by
  by_cases known : appendId ∈ s.appends
  · rw [append, if_pos known]
  · have out : ¬ ((host.classify appendId).1 ≠ .instructions ∧
        (host.classify appendId).2.2 = host.providerTurn s.ordinal) := by
      intro both
      rcases apart with first | second
      · exact both.1 first
      · exact second both.2
    have rows := turnRows_append host s classified known
    rw [if_neg out, List.append_nil, turnRows, (append_fields ..).1] at rows
    exact rows

section
variable (kept : Kept host s)
include kept

theorem append_beside (classified : Classified host appendId entries)
    (zero : turnOf appendId = 0)
    (apart : (host.classify appendId).1 = .instructions ∨ (host.classify appendId).2.2 ≠
      host.providerTurn s.ordinal) : Turned host (s.append host appendId entries) := by
  obtain ⟨ordinal, phase, effects⟩ := append_fields host s appendId entries
  have rows : turnRows host (s.append host appendId entries) = turnRows host s := by
    rw [turnRows, ordinal]
    exact turnRows_beside classified apart
  by_cases known : appendId ∈ s.appends
  · rw [append, if_pos known]
    exact kept.turned
  · apply turned_beside kept.turned ordinal phase effects rows _ _ kept.started
    · intro id inside
      rw [append_appends known] at inside
      rcases mem_snoc.mp inside with old | rfl
      · exact Or.inl old
      · exact Or.inr zero
    · intro id inside
      rw [append_appends known]
      exact List.mem_append_left _ inside

theorem assistant_turned (phase : s.phase = .responseReserved calls progress)
    (message : Message) :
    Turned host (s.append host (.assistant s.ordinal)
      [shown host (.assistant s.ordinal) message]) := by
  by_cases known : AppendId.assistant s.ordinal ∈ s.appends
  · rw [append, if_pos known]
    exact kept.turned
  · have rows := turnRows_append host s
      (@classified_shown host (.assistant s.ordinal) message) known
    have turned := kept.turned
    unfold Turned at turned ⊢
    rw [phase] at turned
    obtain ⟨results, turn⟩ := turned
    rcases turn.headed with ⟨empty, _, nothing, none_issued⟩ | ⟨present, _⟩
    · rw [if_pos ⟨by simp [AgentHost.classify], rfl⟩, empty, List.nil_append] at rows
      obtain ⟨ordinal, same_phase, effects⟩ := append_fields host s (.assistant s.ordinal)
        [shown host (.assistant s.ordinal) message]
      rw [same_phase, phase]
      subst nothing
      refine ⟨[], turn.distinct, turn.named, turn.taken, turn.counted, ?_, ?_, ?_, ?_, ?_⟩
      · intro k c listed
        rw [ordinal, append_appends known, ← turn.known k c listed]
        simp
      · rw [rows]
        rfl
      · rw [rows]
        simp [numberedFrom, Entry.record, shown]
      · rw [ordinal, effects]
        exact turn.issued
      · rw [ordinal, append_appends known]
        exact Or.inr ⟨by simp, _, _, rows, rfl⟩
    · exact absurd present known

theorem result_turned (phase : s.phase = .responseReserved calls progress)
    {call : String} (listed : calls[progress]? = some call)
    (present : .assistant s.ordinal ∈ s.appends) {message : Message}
    (own : message.callId = some call) :
    Turned host (s.append host (.result s.ordinal call progress)
      (s.resultEntries host s.ordinal call progress message)) := by
  by_cases known : AppendId.result s.ordinal call progress ∈ s.appends
  · rw [append, if_pos known]
    exact kept.turned
  · have rows := turnRows_append host s
      (@classified_result host s s.ordinal call progress message) known
    have turned := kept.turned
    unfold Turned at turned ⊢
    rw [phase] at turned
    obtain ⟨results, turn⟩ := turned
    have all := turn.counted
    have next : results.length = progress := by
      have few := (turn.known progress call listed).not.mp known
      omega
    have some_name : call ≠ "" := turn.named call (List.mem_of_getElem? listed)
    have same_name : (some call).filter (fun c => !decide (c = "")) = some call := by
      simp [Option.filter, some_name]
    have inside : progress < calls.length := (List.getElem?_eq_some_iff.mp listed).1
    rw [if_pos ⟨by simp [AgentHost.classify], rfl⟩] at rows
    have new_calls : answeredCalls (numberedFrom host.contentHash
        (host.appendText (.result s.ordinal call progress)) s.journal.rows.length
        (s.resultEntries host s.ordinal call progress message)) =
          copies (call, host.large message) := by
      unfold resultEntries copies
      cases host.large message with
      | false => simp [answeredCalls, numberedFrom, Entry.record, shown, AgentHost.classify,
          callIdOf, own, same_name]
      | true => simp [answeredCalls, numberedFrom, Entry.record, shown, AgentHost.classify,
          callIdOf, previewOf, own, same_name]
    have new_hidden : (∃ r ∈ numberedFrom host.contentHash
        (host.appendText (.result s.ordinal call progress)) s.journal.rows.length
        (s.resultEntries host s.ordinal call progress message), r.visibility = .journalOnly) ↔
          host.large message = true := by
      unfold resultEntries
      cases host.large message <;> simp [numberedFrom, Entry.record, shown]
    obtain ⟨ordinal, same_phase, effects⟩ := append_fields host s
      (.result s.ordinal call progress) (s.resultEntries host s.ordinal call progress message)
    rw [same_phase, phase]
    refine ⟨results ++ [(call, host.large message)], turn.distinct, turn.named, ?_, ?_, ?_, ?_, ?_,
      ?_, ?_⟩
    · rw [List.map_append, turn.taken, List.length_append, next]
      have here : calls[progress] = call := (List.getElem?_eq_some_iff.mp listed).2
      rw [List.map_singleton, List.length_singleton, List.take_succ_eq_append_getElem inside, here]
    · rw [List.length_append, List.length_singleton]
      omega
    · intro k c at_k
      have before := turn.known k c at_k
      rw [List.length_append, List.length_singleton, ordinal, append_appends known,
        List.mem_append, before, List.mem_singleton, AppendId.result.injEq]
      constructor
      · intro either
        rcases either with less | same
        · omega
        · omega
      · intro less
        by_cases here : k = progress
        · subst here
          rw [listed] at at_k
          exact Or.inr ⟨rfl, (Option.some.inj at_k).symm, rfl⟩
        · exact Or.inl (by omega)
    · rw [rows]
      unfold answeredCalls at new_calls ⊢
      have before := turn.answered
      unfold answeredCalls at before
      rw [List.filter_append, List.filterMap_append, before, new_calls, List.flatMap_append]
      simp
    · rw [rows]
      simp only [List.mem_append, or_and_right, exists_or, turn.hidden, new_hidden]
      simp
    · rw [ordinal, effects]
      exact turn.issued
    · rw [ordinal, append_appends known]
      rcases turn.headed with ⟨_, absent, _⟩ | ⟨_, first, later, whole, sort⟩
      · exact absurd present absent
      · exact Or.inr ⟨List.mem_append_left _ present, first, later ++ _, by
          rw [rows, whole, List.cons_append], sort⟩

theorem Kept.of_moves (moves : s.Moves t) (sound : t.Sound host)
    (effects : ∀ e ∈ t.effects, e ∈ s.effects ∨ e.turnOrdinal = s.ordinal)
    (started : t.phase ≠ .ready → 0 < t.ordinal) (turned : Turned host t) : Kept host t := by
  have later : s.ordinal ≤ t.ordinal := by rcases moves.turn with ⟨same, _⟩ | ⟨_, next⟩ <;> omega
  refine ⟨sound, ?_, ?_, started, turned⟩
  · intro e inside
    rcases effects e inside with old | own
    · have bound := kept.effects e old
      omega
    · omega
  · intro id inside
    rw [moves.appends] at inside
    have bound := kept.appends id inside
    omega

theorem Kept.of_append (sound : (s.append host appendId entries).Sound host)
    (low : turnOf appendId ≤ s.ordinal) (turned : Turned host (s.append host appendId entries)) :
    Kept host (s.append host appendId entries) := by
  by_cases known : appendId ∈ s.appends
  · rw [append, if_pos known]
    exact kept
  · obtain ⟨ordinal, phase, effects⟩ := append_fields host s appendId entries
    refine ⟨sound, ?_, ?_, ?_, turned⟩
    · rw [ordinal, effects]
      exact kept.effects
    · intro id inside
      rw [append_appends known] at inside
      rw [ordinal]
      rcases mem_snoc.mp inside with old | rfl
      · exact kept.appends id old
      · exact low
    · rw [ordinal, phase]
      exact kept.started

end

theorem user_apart (name : String) (n : Nat) :
    (host.classify (.user name)).2.2 ≠ host.providerTurn n := by
  intro same
  apply AgentHost.user_ne_providerTurn name n
  rw [← same, AgentHost.classify]
  split <;> rfl

theorem step_kept (kept : Kept host s) (e : Event) : Kept host (s.step host e) := by
  have sound := step_sound kept.sound e
  have steps := step_steps host s e
  have turned := kept.turned
  unfold Turned at turned
  generalize s.step host e = t at sound steps ⊢
  cases steps with
  | same => exact kept
  | instructions =>
    exact kept.of_append sound (Nat.zero_le _)
      (append_beside kept (classified_instructions _) rfl (Or.inl rfl))
  | user =>
    exact kept.of_append sound (Nat.zero_le _)
      (append_beside kept (classified_shown _ _) rfl (Or.inr (user_apart _ _)))
  | reserve ready =>
    refine kept.of_moves ?_ sound ?_ ?_ ?_
    · exact ⟨rfl, rfl, Or.inr ⟨ready, rfl⟩⟩
    · exact fun e old => Or.inl old
    · simp
    · refine ⟨kept.sound.later_turn (Nat.lt_succ_self _), ?_, ?_⟩
      · intro e inside
        have bound := kept.effects e inside
        dsimp only
        omega
      · intro id inside
        have bound := kept.appends id inside
        dsimp only
        omega
  | respond reserved =>
    obtain ⟨phase, distinct, named⟩ := reserved
    rw [phase] at turned
    obtain ⟨empty, no_effect, no_append⟩ := turned
    refine kept.of_moves ⟨rfl, rfl, Or.inl ⟨rfl, by simp [phase]⟩⟩ sound ?_ ?_ ?_
    · exact fun e old => Or.inl old
    · exact fun _ => kept.started (by rw [phase]; simp)
    refine ⟨[], distinct, named, rfl, ⟨le_refl _, Nat.zero_le _⟩, ?_, ?_, ?_, ?_, ?_⟩
    · intro k c _
      constructor
      · intro inside
        exact absurd rfl (no_append _ inside)
      · intro less
        cases less
    · change answeredCalls (turnRows host s) = []
      rw [empty]
      rfl
    · change (∃ r ∈ turnRows host s, _) ↔ _
      rw [empty]
      simp
    · intro e inside own
      exact absurd own (no_effect e inside)
    · exact Or.inl ⟨empty, fun inside => no_append _ inside rfl, rfl, no_effect⟩
  | assistant phase => exact kept.of_append sound (le_refl _) (assistant_turned kept phase _)
  | effect phase listed fresh =>
    refine kept.of_moves ⟨rfl, rfl, Or.inl ⟨rfl, id⟩⟩ sound ?_ kept.started ?_
    · intro e inside
      rcases mem_snoc.mp inside with old | rfl
      · exact Or.inl old
      · exact Or.inr rfl
    unfold Turned
    rw [phase] at turned
    dsimp only
    rw [phase]
    obtain ⟨results, turn⟩ := turned
    refine ⟨results, turn.distinct, turn.named, turn.taken, turn.counted, turn.known,
      turn.answered, turn.hidden, ?_, ?_⟩
    · intro e inside own
      rcases mem_snoc.mp inside with old | rfl
      · exact turn.issued e old own
      · exact listed
    · rcases turn.headed with ⟨_, absent, _⟩ | head
      · exact absurd fresh.1 absent
      · exact Or.inr head
  | result phase listed present =>
    exact kept.of_append sound (le_refl _) (result_turned kept phase listed present rfl)
  | @advance calls progress call phase listed done =>
    refine kept.of_moves ⟨rfl, rfl, Or.inl ⟨rfl, by simp [phase]⟩⟩ sound ?_ ?_ ?_
    · exact fun e old => Or.inl old
    · exact fun _ => kept.started (by rw [phase]; simp)
    rw [phase] at turned
    obtain ⟨results, turn⟩ := turned
    have further := (turn.known progress call listed).mp done
    exact ⟨results, turn.distinct, turn.named, turn.taken, ⟨further, turn.counted.2⟩,
      turn.known, turn.answered, turn.hidden, turn.issued, turn.headed⟩
  | repair phase =>
    refine kept.of_moves ⟨rfl, rfl, Or.inl ⟨rfl, by simp [phase]⟩⟩ sound ?_ ?_ ?_
    · exact fun e old => Or.inl old
    · exact fun _ => kept.started (by rw [phase]; simp)
    · rw [phase] at turned
      obtain ⟨results, turn⟩ := turned
      intro e inside own
      have listed := turn.issued e inside own
      cases listed
  | feedback phase =>
    refine kept.of_append sound (le_refl _) ?_
    obtain ⟨ordinal, same_phase, effects⟩ := append_fields host s (.mandatoryFeedback s.ordinal)
      [shown host (.mandatoryFeedback s.ordinal) _]
    unfold Turned
    rw [phase] at turned
    rw [same_phase, phase]
    dsimp only
    rw [ordinal, effects]
    exact turned
  | repaired | finish | settle =>
    exact kept.of_moves ⟨rfl, rfl, Or.inl ⟨rfl, fun _ => rfl⟩⟩ sound (fun e old => Or.inl old)
      (fun busy => absurd rfl busy) trivial
  | turnEnded =>
    refine kept.of_moves ⟨rfl, rfl, Or.inl ⟨rfl, id⟩⟩ sound (fun e old => Or.inl old)
      kept.started ?_
    exact turned_beside kept.turned rfl rfl rfl rfl (fun _ old => Or.inl old) (fun _ old => old)
      kept.started

end AgentState

end AgentContext
