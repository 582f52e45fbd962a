import HarnessSdk.Capacity.Effects
import HarnessSdk.Library.Transitions

/-! Over every interleaving: the limits hold, the queue is first in, first out, and capacity is
neither lost nor taken twice. -/
namespace Capacity
open PyDict PyText Checks Tables Transitions

/-! The invariant. -/

structure Sound (db : Database) : Prop where
  sequences : (db.entries.map Entry.sequence).Nodup
  numbered : ∀ row ∈ db.entries, row.sequence ≤ db.lastSequence
  keys : (db.entries.map fun row => (row.poolId, row.key)).Nodup
  weights : ∀ row ∈ db.entries, 0 < row.weight
  pooled : ∀ row ∈ db.entries, row.poolId ∈ PyDict.keys db.pools
  limits : ∀ pool slots tokens, get? db.pools pool = some (slots, tokens) →
    heldSlots pool db.entries ≤ slots ∧ heldTokens pool db.entries ≤ tokens
  order : ∀ row ∈ db.entries, row.state ∈ begun → ∀ earlier ∈ db.entries,
    earlier.poolId = row.poolId → earlier.sequence < row.sequence → earlier.state ≠ .waiting

def slotOf (pool : String) (row : Entry) : Int :=
  if row.poolId = pool ∧ row.state ∈ held then 1 else 0

def tokensOf (pool : String) (row : Entry) : Int :=
  if row.poolId = pool ∧ row.state ∈ held then row.weight else 0

variable {db db' mid : Database} {ledger : CapacityLedger} {operation : Operation} {probe : Probe}
  (pool : String)

theorem heldSlots_eq (entries : List Entry) :
    (heldSlots pool entries : Int) = total (slotOf pool) entries := by
  have counted : (heldSlots pool entries : Int) = total (fun _ => 1) (heldRows pool entries) := by
    simp [heldSlots, total]
  rw [counted]
  exact total_filter _ _ entries

theorem heldTokens_eq (entries : List Entry) :
    heldTokens pool entries = total (tokensOf pool) entries := total_filter Entry.weight _ entries

section
variable {entries entries' : List Entry}

theorem quiet_slots (each : List.Forall₂ Quiet entries entries') (pool : String) :
    heldSlots pool entries' ≤ heldSlots pool entries := by
  have less : total (slotOf pool) entries' ≤ total (slotOf pool) entries := by
    apply total_le_of_forall₂
    apply each.imp
    intro row row' quiet
    unfold slotOf
    by_cases taken : row'.poolId = pool ∧ row'.state ∈ held
    · rw [if_pos taken, if_pos ⟨quiet.poolId ▸ taken.1, quiet.held taken.2⟩]
    · rw [if_neg taken]
      split <;> omega
  rw [← heldSlots_eq, ← heldSlots_eq] at less
  omega

theorem quiet_tokens (each : List.Forall₂ Quiet entries entries')
    (weights : ∀ row ∈ entries, 0 < row.weight) (pool : String) :
    heldTokens pool entries' ≤ heldTokens pool entries := by
  rw [heldTokens_eq, heldTokens_eq]
  induction each with
  | nil => exact Int.le_refl _
  | @cons row row' rest rest' quiet _ ih =>
    rw [List.forall_mem_cons] at weights
    rw [total_cons, total_cons]
    have here : tokensOf pool row' ≤ tokensOf pool row := by
      unfold tokensOf
      by_cases taken : row'.poolId = pool ∧ row'.state ∈ held
      · rw [if_pos taken, if_pos ⟨quiet.poolId ▸ taken.1, quiet.held taken.2⟩, quiet.weight]
      · rw [if_neg taken]
        have := weights.1
        split <;> omega
    have := ih weights.2
    omega

theorem quiet_map {β : Type} (f : Entry → β) (same : ∀ row row', SameRow row row' → f row' = f row)
    (each : List.Forall₂ Quiet entries entries') : entries'.map f = entries.map f := by
  induction each with
  | nil => rfl
  | cons quiet _ ih => rw [List.map_cons, List.map_cons, same _ _ quiet.toSameRow, ih]

end

theorem Sound.quiet (sound : Sound db) (each : List.Forall₂ Quiet db.entries db'.entries)
    (pools : db'.pools = db.pools) (last : db'.lastSequence = db.lastSequence) : Sound db' where
  sequences := by
    rw [quiet_map Entry.sequence (fun _ _ same => same.sequence) each]
    exact sound.sequences
  numbered := by
    intro row' inside
    obtain ⟨row, hr, quiet⟩ := exists_of_forall₂ each inside
    rw [quiet.sequence, last]
    exact sound.numbered row hr
  keys := by
    rw [quiet_map (fun r => (r.poolId, r.key)) _ each]
    · exact sound.keys
    · intro row row' same
      rw [same.poolId, same.key]
  weights := by
    intro row' inside
    obtain ⟨row, hr, quiet⟩ := exists_of_forall₂ each inside
    rw [quiet.weight]
    exact sound.weights row hr
  pooled := by
    intro row' inside
    obtain ⟨row, hr, quiet⟩ := exists_of_forall₂ each inside
    rw [quiet.poolId, pools]
    exact sound.pooled row hr
  limits := by
    intro pool slots tokens found
    rw [pools] at found
    obtain ⟨few, light⟩ := sound.limits pool slots tokens found
    have := quiet_slots each pool
    have := quiet_tokens each sound.weights pool
    omega
  order := by
    intro row' inside started earlier' inside' pool before
    obtain ⟨row, hr, quiet⟩ := exists_of_forall₂ each inside
    obtain ⟨earlier, he, quiet'⟩ := exists_of_forall₂ each inside'
    intro waits
    refine sound.order row hr (quiet.begun started) earlier he ?_ ?_ (quiet'.waiting waits)
    · rw [← quiet'.poolId, pool, quiet.poolId]
    · rw [← quiet'.sequence, ← quiet.sequence]
      exact before

variable {row : Entry}

theorem Sound.add (sound : Sound db) (number : row.sequence = db.lastSequence + 1)
    (waits : row.state = .waiting) (pool : row.poolId ∈ PyDict.keys db.pools)
    (fresh : ∀ r ∈ db.entries, ¬ (r.poolId = row.poolId ∧ r.key = row.key))
    (heavy : 0 < row.weight) :
    Sound { db with entries := db.entries ++ [row], lastSequence := db.lastSequence + 1 } where
  sequences := by
    rw [List.map_append, List.nodup_append]
    refine ⟨sound.sequences, List.nodup_singleton _, ?_⟩
    intro n old m new same
    obtain ⟨r, hr, rfl⟩ := List.mem_map.mp old
    have := sound.numbered r hr
    simp only [List.map_cons, List.map_nil, List.mem_singleton] at new
    omega
  numbered := by
    intro r hr
    rcases mem_snoc.mp hr with old | rfl
    · have := sound.numbered r old
      exact Nat.le_succ_of_le this
    · rw [number]
  keys := by
    rw [List.map_append, List.nodup_append]
    refine ⟨sound.keys, List.nodup_singleton _, ?_⟩
    rintro _ old _ new rfl
    obtain ⟨r, hr, same⟩ := List.mem_map.mp old
    rw [List.map_singleton, List.mem_singleton] at new
    rw [new, Prod.mk.injEq] at same
    exact fresh r hr same
  weights := by
    intro r hr
    rcases mem_snoc.mp hr with old | rfl
    · exact sound.weights r old
    · exact heavy
  pooled := by
    intro r hr
    rcases mem_snoc.mp hr with old | rfl
    · exact sound.pooled r old
    · exact pool
  limits := by
    intro pool slots tokens found
    have same : heldRows pool (db.entries ++ [row]) = heldRows pool db.entries := by
      simp [heldRows, held, waits]
    unfold heldSlots heldTokens
    rw [same]
    exact sound.limits pool slots tokens found
  order := by
    intro r hr started earlier he pool before
    rcases mem_snoc.mp hr with old | rfl
    · rcases List.mem_append.mp he with old' | new'
      · exact sound.order r old started earlier old' pool before
      · have := sound.numbered r old
        rw [List.mem_singleton.mp new', number] at before
        omega
    · rw [waits] at started
      simp [begun] at started

theorem total_reserve (sound : Sound mid) (inside : row ∈ mid.entries) (amount : Entry → Int) :
    total amount (amend (·.sequence = row.sequence) (fun r => { r with state := .reserved })
      mid.entries) =
      total amount mid.entries + (amount { row with state := .reserved } - amount row) :=
  total_amend_key amount _ sound.sequences inside

theorem Sound.take (sound : Sound mid)
    (opened : get? mid.pools ledger.poolId = some (ledger.maxSlots, ledger.maxTokens))
    (inside : row ∈ mid.entries) (waits : row.state = .waiting)
    (pool : row.poolId = ledger.poolId)
    (head : ∀ r ∈ mid.entries, r.poolId = ledger.poolId → r.state = .waiting → row.sequence ≤
      r.sequence) (slots : heldSlots ledger.poolId mid.entries < ledger.maxSlots)
    (tokens : heldTokens ledger.poolId mid.entries + row.weight ≤ ledger.maxTokens) :
    Sound { mid with
      entries := amend (·.sequence = row.sequence) (fun r => { r with state := .reserved })
        mid.entries } where
  sequences := by
    have same : (amend (·.sequence = row.sequence) (fun r => { r with state := .reserved })
        mid.entries).map Entry.sequence = mid.entries.map Entry.sequence := by
      rw [amend, List.map_map]
      apply List.map_congr_left
      intro r _
      rw [Function.comp_apply]
      split <;> rfl
    rw [same]
    exact sound.sequences
  numbered := by
    intro r hr
    obtain ⟨old, ho, rfl⟩ := mem_amend.mp hr
    have := sound.numbered old ho
    split <;> exact this
  keys := by
    have same : (amend (·.sequence = row.sequence) (fun r => { r with state := .reserved })
        mid.entries).map (fun r => (r.poolId, r.key)) = mid.entries.map fun r => (r.poolId, r.key) := by
      rw [amend, List.map_map]
      apply List.map_congr_left
      intro r _
      rw [Function.comp_apply]
      split <;> rfl
    rw [same]
    exact sound.keys
  weights := by
    intro r hr
    obtain ⟨old, ho, rfl⟩ := mem_amend.mp hr
    have := sound.weights old ho
    split <;> exact this
  pooled := by
    intro r hr
    obtain ⟨old, ho, rfl⟩ := mem_amend.mp hr
    have := sound.pooled old ho
    split <;> exact this
  limits := by
    intro p slots' tokens' found
    have few := sound.limits p slots' tokens' found
    have count := total_reserve sound inside (slotOf p)
    have weigh := total_reserve sound inside (tokensOf p)
    rw [← heldSlots_eq, ← heldSlots_eq] at count
    rw [← heldTokens_eq, ← heldTokens_eq] at weigh
    have was : slotOf p row = 0 ∧ tokensOf p row = 0 := by simp [slotOf, tokensOf, waits, held]
    dsimp only
    by_cases here : ledger.poolId = p
    · subst here
      rw [opened, Option.some.injEq, Prod.mk.injEq] at found
      have is : slotOf ledger.poolId { row with state := .reserved } = 1 ∧
          tokensOf ledger.poolId { row with state := .reserved } = row.weight := by
        simp [slotOf, tokensOf, pool, held]
      omega
    · have is : slotOf p { row with state := .reserved } = 0 ∧
          tokensOf p { row with state := .reserved } = 0 := by
        simp [slotOf, tokensOf, pool, here]
      omega
  order := by
    intro r hr started earlier he samePool before still
    obtain ⟨old, ho, rfl⟩ := mem_amend.mp hr
    obtain ⟨old', ho', rfl⟩ := mem_amend.mp he
    by_cases first : old'.sequence = row.sequence
    · rw [if_pos first] at still
      cases still
    · rw [if_neg first] at still before samePool
      by_cases here : old.sequence = row.sequence
      · have equal := List.inj_on_of_nodup_map sound.sequences ho inside here
        subst equal
        rw [if_pos rfl] at before samePool
        have := head old' ho' (samePool.trans pool) still
        exact absurd before (by simp only; omega)
      · rw [if_neg here] at before samePool started
        exact sound.order old ho started old' ho' samePool before still

theorem Sound.effect (sound : Sound mid)
    (opened : get? mid.pools ledger.poolId = some (ledger.maxSlots, ledger.maxTokens))
    (effect : Effect ledger operation mid db') : Sound db' := by
  cases effect with
  | nothing => exact sound
  | added row number waits pool fresh heavy =>
    refine sound.add number waits ?_ fresh heavy
    rw [pool, ← get?_isSome_iff, opened]
    rfl
  | taken row inside waits pool head slots tokens =>
    exact sound.take opened inside waits pool head slots tokens
  | eased row inside f quiet goes =>
    have each : List.Forall₂ Quiet mid.entries (amend (·.sequence = row.sequence) f mid.entries) := by
      rw [amend, List.forall₂_map_right_iff, List.forall₂_same]
      intro r hr
      by_cases here : r.sequence = row.sequence
      · rw [if_pos here, List.inj_on_of_nodup_map sound.sequences hr inside here]
        exact quiet
      · rw [if_neg here]
        exact Quiet.refl r
    exact sound.quiet each rfl rfl

structure Coherent (s : System) : Prop where
  sound : Sound s.db
  opened : ∀ ledger ∈ s.handles,
    get? s.db.pools ledger.poolId = some (ledger.maxSlots, ledger.maxTokens)

theorem Effect.pools_eq (effect : Effect ledger operation mid db') : db'.pools = mid.pools := by
  cases effect <;> rfl

variable {s : System}

theorem Coherent.perform (coherent : Coherent s) (handle : ledger ∈ s.handles)
    (ok : perform ledger probe s.db operation = .ok db') : Coherent { s with db := db' } := by
  obtain ⟨mid, recovered, effect⟩ := perform_effect coherent.sound.sequences ok
  obtain ⟨each, pools, last⟩ := recoverDead_spec recovered
  have sound := coherent.sound.quiet (each.imp fun _ _ h => h.1) pools last
  constructor
  · apply sound.effect _ effect
    rw [pools]
    exact coherent.opened ledger handle
  · intro other hother
    rw [effect.pools_eq, pools]
    exact coherent.opened other hother

theorem Coherent.connect (coherent : Coherent s) (ok : s.db.initializePool ledger = .ok db') :
    Coherent ⟨db', ledger :: s.handles⟩ := by
  simp only [Database.initializePool, positiveInt, bind_eq_ok, Unique.exists_iff,
    PUnit.default_eq_unit, require_eq_ok] at ok
  obtain ⟨_, slots, tokens, ok⟩ := ok
  cases found : get? s.db.pools ledger.poolId with
  | some limits =>
    simp only [found, bind_eq_ok, Unique.exists_iff, PUnit.default_eq_unit, require_eq_ok] at ok
    obtain ⟨same, ok⟩ := ok
    cases ok
    refine ⟨coherent.sound, ?_⟩
    rw [List.forall_mem_cons]
    exact ⟨by rw [found, same], coherent.opened⟩
  | none =>
    simp only [found] at ok
    cases ok
    have unused : ∀ row ∈ s.db.entries, row.poolId ≠ ledger.poolId := by
      intro row hr same
      have known := coherent.sound.pooled row hr
      rw [get?_eq_none_iff, ← same] at found
      exact found known
    have nothing : heldRows ledger.poolId s.db.entries = [] := by
      rw [heldRows, List.filter_eq_nil_iff]
      intro row hr taken
      rw [decide_eq_true_eq] at taken
      exact unused row hr taken.1
    constructor
    · refine ⟨coherent.sound.sequences, coherent.sound.numbered, coherent.sound.keys,
        coherent.sound.weights, ?_, ?_, coherent.sound.order⟩
      · intro row hr
        rw [mem_keys_set]
        exact Or.inr (coherent.sound.pooled row hr)
      · intro pool slots' tokens' limits
        simp only at limits ⊢
        rw [get?_set] at limits
        by_cases here : ledger.poolId = pool
        · rw [if_pos here, Option.some.injEq, Prod.mk.injEq] at limits
          rw [← here]
          simp only [heldSlots, heldTokens, nothing, List.length_nil, List.map_nil, List.sum_nil]
          omega
        · rw [if_neg here] at limits
          exact coherent.sound.limits pool slots' tokens' limits
    · rw [List.forall_mem_cons]
      refine ⟨get?_set_self _ _ _, fun other hother => ?_⟩
      have before := coherent.opened other hother
      rw [get?_set]
      by_cases here : ledger.poolId = other.poolId
      · rw [← here, found] at before
        cases before
      · rw [if_neg here]
        exact before

theorem Coherent.act (coherent : Coherent s) (action : Action) : Coherent (s.act action) := by
  cases action with
  | connect ledger =>
    rw [System.act]
    split
    · next db' ok => exact coherent.connect ok
    · exact coherent
  | call ledger probe operation =>
    rw [System.act]
    split
    · next handle =>
      split
      · next db' ok => exact coherent.perform handle ok
      · exact coherent
    · exact coherent

theorem coherent_empty : Coherent System.empty where
  sound := by constructor <;> simp [System.empty]
  opened := by simp [System.empty]

/-! What happens to an entry over a run. -/

def Action.settles (row : Entry) : Action → Prop
  | .connect _ => False
  | .call ledger _ operation => operation.settles ledger row

theorem Action.settles_congr {action : Action} {old new : Entry} (same : SameRow old new)
    (settles : action.settles new) : action.settles old := by
  cases action with
  | connect ledger => exact settles
  | call ledger probe operation => exact Operation.settles_congr same settles

structure Evolves (settles : Entry → Prop) (old new : Database) : Prop where
  forward : ∀ row ∈ old.entries, ∃ row' ∈ new.entries, Goes settles row row'
  backward : ∀ row' ∈ new.entries,
    (∃ row ∈ old.entries, row.sequence = row'.sequence) ∨ old.lastSequence < row'.sequence
  last : old.lastSequence ≤ new.lastSequence

theorem Evolves.refl (settles : Entry → Prop) (db : Database) : Evolves settles db db where
  forward := fun row hr => ⟨row, hr, Goes.refl settles row⟩
  backward := fun row hr => Or.inl ⟨row, hr, rfl⟩
  last := Nat.le_refl _

theorem Evolves.trans {settles later : Entry → Prop} {a b c : Database} (first : Evolves settles a b)
    (second : Evolves later b c) (same : ∀ old new, SameRow old new → later new → later old) :
    Evolves (fun row => settles row ∨ later row) a c where
  forward := by
    intro row hr
    obtain ⟨row', hr', goes⟩ := first.forward row hr
    obtain ⟨row'', hr'', goes'⟩ := second.forward row' hr'
    exact ⟨row'', hr'', goes.trans goes' (same _ _ goes.toSameRow)⟩
  backward := by
    intro row'' hr''
    rcases second.backward row'' hr'' with ⟨row', hr', number⟩ | beyond
    · rcases first.backward row' hr' with ⟨row, hr, number'⟩ | beyond
      · exact Or.inl ⟨row, hr, number'.trans number⟩
      · exact Or.inr (number ▸ beyond)
    · exact Or.inr (Nat.lt_of_le_of_lt first.last beyond)
  last := Nat.le_trans first.last second.last

theorem Evolves.weaken {settles settles' : Entry → Prop} {old new : Database}
    (evolves : Evolves settles old new) (more : ∀ row, settles row → settles' row) :
    Evolves settles' old new where
  forward := by
    intro row hr
    obtain ⟨row', hr', goes⟩ := evolves.forward row hr
    refine ⟨row', hr', goes.toSameRow, goes.released, goes.settled, fun taken => ?_, goes.waiting⟩
    exact (goes.kept taken).imp_right fun done => ⟨done.1, more row done.2⟩
  backward := evolves.backward
  last := evolves.last

theorem recover_evolves (ok : recoverDead ledger probe db = .ok mid) : Evolves never db mid := by
  obtain ⟨each, _, last⟩ := recoverDead_spec ok
  refine ⟨?_, ?_, Nat.le_of_eq last.symm⟩
  · intro row hr
    obtain ⟨row', hr', both⟩ := exists_of_forall₂ each.flip hr
    exact ⟨row', hr', both.2⟩
  · intro row' hr'
    obtain ⟨row, hr, quiet⟩ := exists_of_forall₂ (each.imp fun _ _ h => h.1) hr'
    exact Or.inl ⟨row, hr, quiet.sequence.symm⟩

theorem effect_evolves {ledger : CapacityLedger} {operation : Operation} {mid db' : Database}
    (distinct : (mid.entries.map Entry.sequence).Nodup)
    (effect : Effect ledger operation mid db') :
    Evolves (operation.settles ledger ·) mid db' := by
  have amended : ∀ (row : Entry) (f : Entry → Entry), row ∈ mid.entries →
      Goes (operation.settles ledger ·) row (f row) →
      Evolves (operation.settles ledger ·) mid
        { mid with entries := amend (·.sequence = row.sequence) f mid.entries } := by
    intro row f inside goes
    have each : ∀ r ∈ mid.entries, Goes (operation.settles ledger ·) r
        (if r.sequence = row.sequence then f r else r) := by
      intro r hr
      by_cases here : r.sequence = row.sequence
      · rw [if_pos here, List.inj_on_of_nodup_map distinct hr inside here]
        exact goes
      · rw [if_neg here]
        exact Goes.refl _ r
    refine ⟨?_, ?_, Nat.le_refl _⟩
    · intro r hr
      exact ⟨_, mem_amend.mpr ⟨r, hr, rfl⟩, each r hr⟩
    · intro r' hr'
      obtain ⟨r, hr, rfl⟩ := mem_amend.mp hr'
      exact Or.inl ⟨r, hr, (each r hr).sequence.symm⟩
  cases effect with
  | nothing => exact Evolves.refl _ mid
  | added row number waits pool fresh heavy =>
    refine ⟨?_, ?_, Nat.le_succ _⟩
    · intro r hr
      exact ⟨r, List.mem_append_left _ hr, Goes.refl _ r⟩
    · intro r' hr'
      rcases mem_snoc.mp hr' with old | rfl
      · exact Or.inl ⟨r', old, rfl⟩
      · exact Or.inr (by omega)
  | taken row inside waits pool head slots tokens =>
    apply amended row _ inside
    exact ⟨⟨rfl, rfl, rfl, rfl, rfl, rfl⟩, by simp [waits], by simp [waits], by simp [waits],
      by simp⟩
  | eased row inside f quiet goes => exact amended row f inside goes

theorem act_evolves (coherent : Coherent s) (action : Action) :
    Evolves action.settles s.db (s.act action).db := by
  cases action with
  | connect ledger =>
    rw [System.act]
    split
    · next db' ok =>
      simp only [Database.initializePool, bind_eq_ok, Unique.exists_iff] at ok
      obtain ⟨_, _, _, ok⟩ := ok
      have same : db'.entries = s.db.entries ∧ db'.lastSequence = s.db.lastSequence := by
        split at ok
        · cases ok
          exact ⟨rfl, rfl⟩
        · obtain ⟨_, ok⟩ := then_eq_ok.mp ok
          cases ok
          exact ⟨rfl, rfl⟩
      refine ⟨?_, ?_, Nat.le_of_eq same.2.symm⟩
      · intro row hr
        exact ⟨row, same.1 ▸ hr, Goes.refl _ row⟩
      · intro row' hr'
        exact Or.inl ⟨row', same.1 ▸ hr', rfl⟩
    · exact Evolves.refl _ _
  | call ledger probe operation =>
    rw [System.act]
    split
    · split
      · next db' ok =>
        obtain ⟨mid, recovered, effect⟩ := perform_effect coherent.sound.sequences ok
        have distinct : (mid.entries.map Entry.sequence).Nodup := by
          rw [sequences_recovered (recoverDead_spec recovered).1]
          exact coherent.sound.sequences
        apply ((recover_evolves recovered).trans (effect_evolves distinct effect)
          fun _ _ same => Operation.settles_congr same).weaken
        exact fun row by_ => by_.elim False.elim id
      · exact Evolves.refl _ _
    · exact Evolves.refl _ _

theorem run_evolves (coherent : Coherent s) (later : List Action) :
    Evolves (fun row => ∃ action ∈ later, action.settles row) s.db (run System.act s later).db := by
  apply run_relates Coherent (fun s action coherent => coherent.act action)
    (fun later s t => Evolves (fun row => ∃ action ∈ later, action.settles row) s.db t.db)
  · exact fun s _ => Evolves.refl _ s.db
  · intro s action rest t coherent evolves
    apply ((act_evolves coherent action).trans evolves ?_).weaken
    · rintro row (now | ⟨other, inside, by_⟩)
      · exact ⟨action, List.mem_cons_self, now⟩
      · exact ⟨other, List.mem_cons_of_mem _ inside, by_⟩
    · rintro old new same ⟨other, inside, by_⟩
      exact ⟨other, inside, Action.settles_congr same by_⟩
  · exact coherent

theorem run_coherent (actions : List Action) : Coherent (run System.act System.empty actions) :=
  run_keeps Coherent (fun _ action coherent => coherent.act action) coherent_empty actions

/-- After every interleaving: held entries fit the limits; a handed off entry keeps its capacity until
something settles it; an entry that was reserved had every entry enqueued before it leave the queue;
and a key once released or settled stays so. -/
theorem capacity_over_runs (before later : List Action) :
    let start := run System.act System.empty before
    let finish := run System.act System.empty (before ++ later)
    (∀ ledger ∈ start.handles,
      heldSlots ledger.poolId start.db.entries ≤ ledger.maxSlots ∧
      heldTokens ledger.poolId start.db.entries ≤ ledger.maxTokens) ∧
    (∀ row ∈ start.db.entries, row.state ∈ [.handedOff, .unknown] →
      ∃ row' ∈ finish.db.entries, SameRow row row' ∧ (row'.state ∈ [.handedOff, .unknown] ∨
        row'.state = .settled ∧ ∃ action ∈ later, action.settles row)) ∧
    (∀ earlier ∈ start.db.entries, ∀ row ∈ finish.db.entries,
      row.sequence ∉ start.db.entries.map Entry.sequence → row.poolId = earlier.poolId →
      row.state ∈ begun → ∀ earlier' ∈ finish.db.entries, earlier'.sequence = earlier.sequence →
        earlier'.state ≠ .waiting) ∧
    ∀ row ∈ start.db.entries, row.state ∈ [.released, .settled] →
      ∀ row' ∈ finish.db.entries, row'.poolId = row.poolId → row'.key = row.key →
        row'.state = row.state := by
  intro start finish
  have first : Coherent start := run_coherent before
  have second : Coherent finish := run_coherent (before ++ later)
  have evolves : Evolves (fun row => ∃ action ∈ later, action.settles row) start.db finish.db := by
    have joined : finish = run System.act start later := run_append System.act _ before later
    rw [joined]
    exact run_evolves first later
  refine ⟨?_, ?_, ?_, ?_⟩
  · intro ledger handle
    exact first.sound.limits _ _ _ (first.opened ledger handle)
  · intro row hr taken
    obtain ⟨row', hr', goes⟩ := evolves.forward row hr
    exact ⟨row', hr', goes.toSameRow, goes.kept taken⟩
  · intro earlier he row hr new pool started earlier' he' number
    have after : start.db.lastSequence < row.sequence := by
      rcases evolves.backward row hr with ⟨old, ho, same⟩ | beyond
      · exact absurd (same ▸ List.mem_map_of_mem ho) new
      · exact beyond
    have numbered := first.sound.numbered earlier he
    obtain ⟨again, hagain, goes⟩ := evolves.forward earlier he
    have same : earlier' = again := List.inj_on_of_nodup_map second.sound.sequences he' hagain
      (number.trans goes.sequence.symm)
    apply second.sound.order row hr started earlier' he'
    · rw [same, goes.poolId, pool]
    · omega
  · intro row hr ended row' hr' pool key
    obtain ⟨again, hagain, goes⟩ := evolves.forward row hr
    have same : row' = again := by
      apply List.inj_on_of_nodup_map second.sound.keys hr' hagain
      rw [pool, key, goes.poolId, goes.key]
    rw [same]
    simp only [List.mem_cons, List.not_mem_nil, or_false] at ended
    rcases ended with state | state
    · rw [state, goes.released state]
    · rw [state, goes.settled state]

def probeOf (alive : Bool) : Probe := ⟨fun _ _ => alive, fun _ _ => .ok none⟩

example : (run System.act System.empty
    [.connect ⟨"pool", 1, 10⟩,
      .call ⟨"pool", 1, 10⟩ (probeOf true) (.enqueue "epoch" "key" "owner" 5 7),
      .call ⟨"pool", 1, 10⟩ (probeOf true) (.tryAcquire ⟨"pool", "key", "owner", "epoch", 5⟩),
      .call ⟨"pool", 1, 10⟩ (probeOf true) (.markHandedOff ⟨"pool", "key", "owner", "epoch", 5⟩),
      .call ⟨"pool", 1, 10⟩ (probeOf false) .snapshot]).db.entries.map Entry.state = [.unknown] := by
  decide +kernel

end Capacity
