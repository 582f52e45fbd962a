import HarnessSdk.Obligations.Ledger
import HarnessSdk.Library.Tables
import HarnessSdk.Library.Transitions

/-! Over every run fuel is moved and spent, and never made. -/
namespace Obligations
open PyDict PyText Checks Network Planning Metered Tables

/-! What an operation does to the rows. -/

structure Keeps (old new : Account) : Prop where
  fuelLimit : new.fuelLimit = old.fuelLimit
  fuelUsed : new.fuelUsed = old.fuelUsed
  expansionKeys : new.expansionKeys = old.expansionKeys
  failureCount : old.failureCount ≤ new.failureCount
  consumedCostMicros : old.consumedCostMicros ≤ new.consumedCostMicros
  consumedAttempts : old.consumedAttempts ≤ new.consumedAttempts
  consumedTokens : old.consumedTokens ≤ new.consumedTokens

def opened (obligation : Obligation) (fuel : Int) : Account :=
  ⟨obligation, fuel, 0, 0, 0, 0, 0, false, [], [], obligation.lifecycle, obligation.resolutionRef⟩

def ObligationLedger.put (ledger : ObligationLedger) (target : ObligationId) (row : Account) :
    ObligationLedger :=
  { ledger with accounts := set ledger.accounts target row }

def Account.give (row : Account) (share : Int) : Account :=
  { row with fuelLimit := row.fuelLimit - share }

def Account.expand (row : Account) (key : String × String) : Account :=
  { row with
    fuelUsed := row.fuelUsed + 1
    expansionKeys := row.expansionKeys ++ [key] }

/-- What one operation can do, with the fuel it brings and the expansions it grants. -/
inductive Change (s : ObligationLedger) : Int → Nat → ObligationLedger → Prop
  | same : Change s 0 0 s
  | registered {obligation fuel} : get? s.accounts obligation.obligationId = none → 0 ≤ fuel →
      Change s fuel 0 (s.put obligation.obligationId (opened obligation fuel))
  | shared {parent child row share} : get? s.accounts parent = some row →
      get? s.accounts child.obligationId = none → 1 ≤ share → share ≤ row.remaining →
      Change s 0 0 ((s.put parent (row.give share)).put child.obligationId (opened child share))
  | kept {target row row'} : get? s.accounts target = some row → Keeps row row' →
      Change s 0 0 (s.put target row')
  | expanded {target row key} : get? s.accounts target = some row → key ∉ row.expansionKeys →
      row.fuelUsed < row.fuelLimit → Change s 0 1 (s.put target (row.expand key))

def Operation.offers (s : ObligationLedger) : Operation → Int
  | .register _ recursionFuel => recursionFuel.getD s.defaultFuel
  | .openFrom opening _ grantedFuel =>
    if opening.budgetInheritance = .separateGrant then grantedFuel.getD 0 else 0
  | _ => 0

def admitted : Option FuelDecision → Nat
  | some decision => if decision.status = .granted then 1 else 0
  | none => 0

section
variable {s : ObligationLedger} {α : Type} {post : α → ObligationLedger → Prop}

theorem index_eq_ok {value minimum : Int} {name : String} {out : Int} :
    index value name minimum = .ok out ↔ out = value ∧ minimum ≤ value ∧ value ≤ maxJsonInt := by
  unfold index
  simp only [bind_eq_ok, Unique.exists_iff, PUnit.default_eq_unit, require_eq_ok]
  constructor
  · rintro ⟨low, high, ⟨rfl⟩⟩
    exact ⟨rfl, low, high⟩
  · rintro ⟨rfl, low, high⟩
    exact ⟨low, high, rfl⟩

variable {target : ObligationId}

theorem atomic_require {f : Account → Work α}
    (rest : ∀ row, get? s.accounts target = some row → Atomic (f row) s post) :
    Atomic (requireAccount target >>= f) s post := by
  unfold requireAccount
  rw [bind_assoc]
  apply atomic_view
  exact atomic_orStop rest

variable {row : Account}

theorem requireAccount_ran (found : get? s.accounts target = some row) :
    requireAccount target s = (.ok row, s) := by
  unfold requireAccount
  rw [bind_of_ran (rfl : view _ s = (.ok (get? s.accounts target), s)), found]
  rfl

theorem reads_account (target : ObligationId) : Reads (account target) :=
  Reads.bind (Reads.bind (reads_view _) fun _ => reads_orStop _ _) fun _ => reads_pure _

theorem account_ends {post : ObligationAccountView → ObligationLedger → Prop}
    (holds : post row.view (s.put target row)) : Ends (account target) (s.put target row) post := by
  have found : get? (s.put target row).accounts target = some row := get?_set_self _ _ _
  exact ends_after (requireAccount_ran found) (ends_pure holds)

end

section
variable {s : ObligationLedger}

theorem register_atomic (sound : 0 ≤ s.defaultFuel) (obligation : Obligation)
    (recursionFuel : Option Int) :
    Atomic (register obligation recursionFuel) s
      fun _ t => Change s (recursionFuel.getD s.defaultFuel) 0 t := by
  unfold register
  apply atomic_view
  apply atomic_view
  apply atomic_ensure
  intro fresh
  apply atomic_lift
  intro fuel chosen
  apply Ends.atomic
  refine ⟨(), _, rfl, ?_⟩
  cases recursionFuel with
  | none =>
    cases chosen
    exact .registered fresh sound
  | some wanted =>
    obtain ⟨rfl, low, _⟩ := index_eq_ok.mp chosen
    exact .registered fresh low

variable {opening : ObligationOpening} {grantedFuel : Option Int}

theorem fundingOf_eq_ok {parent : Account} {childFuel share : Int}
    (funded : fundingOf opening parent grantedFuel = .ok (childFuel, share)) :
    opening.budgetInheritance = .inheritParentFuelShare ∧ share = childFuel ∧ 1 ≤ share ∧
      share ≤ parent.remaining ∨
    opening.budgetInheritance = .separateGrant ∧ grantedFuel = some childFuel ∧ 0 ≤ childFuel ∧
      share = 0 := by
  unfold fundingOf at funded
  cases rule : opening.budgetInheritance with
  | inheritParentFuelShare =>
    simp only [rule, bind_eq_ok, Unique.exists_iff, PUnit.default_eq_unit, require_eq_ok] at funded
    obtain ⟨_, taken, indexed, enough, ⟨rfl⟩⟩ := funded
    cases wanted : opening.fuelShare with
    | none => simp [wanted, indexOf] at indexed
    | some wanted' =>
      rw [wanted] at indexed
      obtain ⟨same, low, _⟩ := index_eq_ok.mp indexed
      exact Or.inl ⟨rfl, rfl, same ▸ low, enough⟩
  | separateGrant =>
    simp only [rule, bind_eq_ok, Unique.exists_iff, PUnit.default_eq_unit, require_eq_ok] at funded
    obtain ⟨_, fuel, indexed, ⟨rfl⟩⟩ := funded
    cases grantedFuel with
    | none => simp [indexOf] at indexed
    | some granted =>
      obtain ⟨same, low, _⟩ := index_eq_ok.mp indexed
      exact Or.inr ⟨rfl, by rw [same], same ▸ low, rfl⟩

theorem give_zero (row : Account) : row.give 0 = row := by
  unfold Account.give
  rw [Int.sub_zero]

theorem put_same {target : ObligationId} {row : Account}
    (found : get? s.accounts target = some row) : s.put target row = s := by
  unfold ObligationLedger.put
  rw [set_same found]

/-- The duty of the opening is there, with its fuel from its parent or from the grant. -/
inductive Opens (s : ObligationLedger) (opening : ObligationOpening) (grantedFuel : Option Int) :
    ObligationLedger → Prop
  | opens {parent : Account} {childFuel share : Int} :
      get? s.accounts opening.parentObligationId = some parent →
      get? s.accounts opening.obligationId = none →
      fundingOf opening parent grantedFuel = .ok (childFuel, share) →
      Opens s opening grantedFuel ((s.put opening.parentObligationId (parent.give share)).put
        opening.obligationId (opened (childOf opening parent) childFuel))

theorem openFrom_opens (opening : ObligationOpening) (parentAccount : ObligationAccountView)
    (grantedFuel : Option Int) : Atomic (openFrom opening parentAccount grantedFuel) s
      fun _ t => Opens s opening grantedFuel t := by
  unfold openFrom
  apply atomic_ensure
  intro _
  apply atomic_require
  intro parent found
  apply atomic_bind (reads_account _)
  intro current _
  apply atomic_ensure
  intro _
  apply atomic_view
  apply atomic_ensure
  intro fresh
  apply atomic_ensure
  intro _
  apply atomic_lift
  rintro ⟨childFuel, share⟩ funded
  apply atomic_lift
  intro _ _
  apply Ends.atomic
  apply ends_after rfl
  apply ends_after rfl
  apply account_ends
  exact .opens found fresh funded

theorem Opens.change {t : ObligationLedger} (opens : Opens s opening grantedFuel t) :
    Change s (if opening.budgetInheritance = .separateGrant then grantedFuel.getD 0 else 0) 0 t := by
  cases opens with
  | @opens parent childFuel share found fresh funded =>
    change Change s _ 0 ((s.put _ (parent.give share)).put (childOf opening parent).obligationId
      (opened (childOf opening parent) childFuel))
    rcases fundingOf_eq_ok funded with ⟨rule, rfl, low, enough⟩ | ⟨rule, granted, low, rfl⟩
    · rw [if_neg (by rw [rule]; decide)]
      exact .shared found fresh low enough
    · rw [if_pos rule, granted, give_zero, put_same found]
      exact .registered fresh low

theorem openFrom_atomic (opening : ObligationOpening) (parentAccount : ObligationAccountView)
    (grantedFuel : Option Int) :
    Atomic (openFrom opening parentAccount grantedFuel) s fun _ t =>
      Change s (if opening.budgetInheritance = .separateGrant then grantedFuel.getD 0 else 0) 0 t :=
  (openFrom_opens opening parentAccount grantedFuel).mono fun _ _ opens => opens.change

theorem kept_ends {target : ObligationId} {row row' : Account}
    (found : get? s.accounts target = some row) (keeps : Keeps row row') :
    Ends (put target row' >>= fun _ => account target) s fun _ t => Change s 0 0 t := by
  apply ends_after rfl
  exact account_ends (.kept found keeps)

variable (target : ObligationId)

theorem recordFailure_atomic (count : Int) :
    Atomic (recordFailure target count) s fun _ t => Change s 0 0 t := by
  unfold recordFailure
  apply atomic_require
  intro row found
  apply atomic_lift
  intro more indexed
  obtain ⟨rfl, low, _⟩ := index_eq_ok.mp indexed
  apply Ends.atomic
  apply ends_after rfl
  apply ends_pure
  apply Change.kept found
  constructor <;> dsimp only <;> omega

theorem recordSpend_atomic (costMicros attempts tokens : Int) :
    Atomic (recordSpend target costMicros attempts tokens) s fun _ t => Change s 0 0 t := by
  unfold recordSpend
  apply atomic_require
  intro row found
  apply atomic_lift
  intro spent cost
  apply atomic_lift
  intro tries counted
  apply atomic_lift
  intro spentTokens weighed
  obtain ⟨rfl, cost_low, _⟩ := index_eq_ok.mp cost
  obtain ⟨rfl, tries_low, _⟩ := index_eq_ok.mp counted
  obtain ⟨rfl, tokens_low, _⟩ := index_eq_ok.mp weighed
  apply Ends.atomic
  apply kept_ends found
  constructor <;> dsimp only <;> omega

theorem admitDemand_atomic : Atomic (admitDemand target) s fun _ t => Change s 0 0 t := by
  unfold admitDemand
  apply atomic_require
  intro row found
  apply atomic_ensure
  intro _
  apply atomic_ensure
  intro _
  apply Ends.atomic
  apply kept_ends found
  exact ⟨rfl, rfl, rfl, Int.le_refl _, Int.le_refl _, Int.le_refl _, Int.le_refl _⟩

theorem withdrawDemand_atomic : Atomic (withdrawDemand target) s fun _ t => Change s 0 0 t := by
  unfold withdrawDemand
  apply atomic_require
  intro row found
  apply atomic_ensure
  intro _
  apply Ends.atomic
  apply kept_ends found
  exact ⟨rfl, rfl, rfl, Int.le_refl _, Int.le_refl _, Int.le_refl _, Int.le_refl _⟩

theorem noteShapeChange_atomic (change : ShapeChange) (detail : String) :
    Atomic (noteShapeChange target change detail) s fun _ t => Change s 0 0 t := by
  unfold noteShapeChange
  apply atomic_require
  intro row found
  apply atomic_lift
  intro _ _
  apply Ends.atomic
  apply kept_ends found
  exact ⟨rfl, rfl, rfl, Int.le_refl _, Int.le_refl _, Int.le_refl _, Int.le_refl _⟩

theorem setLifecycle_atomic (lifecycle : ObligationLifecycle) (resolutionRef : Option String) :
    Atomic (setLifecycle target lifecycle resolutionRef) s fun _ t => Change s 0 0 t := by
  unfold setLifecycle
  apply atomic_require
  intro row found
  apply atomic_lift
  intro _ _
  apply atomic_ensure
  intro _
  apply Ends.atomic
  apply kept_ends found
  exact ⟨rfl, rfl, rfl, Int.le_refl _, Int.le_refl _, Int.le_refl _, Int.le_refl _⟩

theorem consumeFuel_atomic (expansion : ExpansionRecord) :
    Atomic (consumeFuel target expansion) s fun decision t =>
      Change s 0 (admitted (some decision)) t := by
  unfold consumeFuel
  apply atomic_require
  intro row found
  split
  · exact atomic_pure .same
  · next fresh =>
    split
    · exact atomic_pure .same
    · next left =>
      apply Ends.atomic
      apply ends_after rfl
      apply ends_pure
      exact .expanded found fresh (Int.not_le.mp left)

theorem perform_atomic (sound : 0 ≤ s.defaultFuel) (operation : Operation) :
    Atomic (perform operation) s fun decision t =>
      Change s (operation.offers s) (admitted decision) t := by
  cases operation with
  | register obligation recursionFuel =>
    exact (register_atomic sound obligation recursionFuel).bind fun _ _ change => ends_pure change
  | openFrom opening parentAccount grantedFuel =>
    exact (openFrom_atomic opening parentAccount grantedFuel).bind fun _ _ change =>
      ends_pure change
  | recordFailure target count =>
    exact (recordFailure_atomic target count).bind fun _ _ change => ends_pure change
  | recordSpend target costMicros attempts tokens =>
    exact (recordSpend_atomic target costMicros attempts tokens).bind fun _ _ change =>
      ends_pure change
  | admitDemand target => exact (admitDemand_atomic target).bind fun _ _ change => ends_pure change
  | withdrawDemand target =>
    exact (withdrawDemand_atomic target).bind fun _ _ change => ends_pure change
  | noteShapeChange target change detail =>
    exact (noteShapeChange_atomic target change detail).bind fun _ _ change => ends_pure change
  | setLifecycle target lifecycle resolutionRef =>
    exact (setLifecycle_atomic target lifecycle resolutionRef).bind fun _ _ change =>
      ends_pure change
  | consumeFuel target expansion =>
    exact (consumeFuel_atomic target expansion).bind fun _ _ change => ends_pure change

end

/-! The invariant. -/

structure Account.Sound (row : Account) : Prop where
  nonneg : 0 ≤ row.fuelUsed
  within : row.fuelUsed ≤ row.fuelLimit
  distinct : row.expansionKeys.Nodup
  counted : (row.expansionKeys.length : Int) = row.fuelUsed

structure Sound (s : ObligationLedger) : Prop where
  defaultFuel : 0 ≤ s.defaultFuel
  distinct : (keys s.accounts).Nodup
  rows : ∀ id row, get? s.accounts id = some row → row.Sound

def ObligationLedger.totalLimit (s : ObligationLedger) : Int :=
  total (fun entry => entry.2.fuelLimit) s.accounts

def ObligationLedger.totalUsed (s : ObligationLedger) : Int :=
  total (fun entry => entry.2.fuelUsed) s.accounts

theorem opened_sound (obligation : Obligation) {fuel : Int} (low : 0 ≤ fuel) :
    (opened obligation fuel).Sound :=
  ⟨Int.le_refl 0, low, List.nodup_nil, rfl⟩

variable {row : Account}

theorem give_sound (sound : row.Sound) {share : Int} (low : 1 ≤ share)
    (enough : share ≤ row.remaining) : (row.give share).Sound where
  nonneg := sound.nonneg
  within := by
    unfold Account.remaining at enough
    unfold Account.give
    dsimp only
    omega
  distinct := sound.distinct
  counted := sound.counted

theorem expand_sound (sound : row.Sound) {key : String × String} (fresh : key ∉ row.expansionKeys)
    (left : row.fuelUsed < row.fuelLimit) :
    (row.expand key).Sound where
  nonneg := by
    have low := sound.nonneg
    unfold Account.expand
    dsimp only
    omega
  within := left
  distinct := by
    unfold Account.expand
    rw [List.nodup_append]
    refine ⟨sound.distinct, by simp, ?_⟩
    rintro old inside _ here rfl
    exact fresh (List.mem_singleton.mp here ▸ inside)
  counted := by
    have before := sound.counted
    unfold Account.expand
    simp only [List.length_append, List.length_singleton]
    omega

theorem Keeps.sound {old new : Account} (keeps : Keeps old new) (sound : old.Sound) : new.Sound where
  nonneg := keeps.fuelUsed ▸ sound.nonneg
  within := by
    rw [keeps.fuelUsed, keeps.fuelLimit]
    exact sound.within
  distinct := keeps.expansionKeys ▸ sound.distinct
  counted := by
    rw [keeps.expansionKeys, keeps.fuelUsed]
    exact sound.counted

section
variable {s t : ObligationLedger} {fuel : Int} {granted : Nat}

variable {target : ObligationId} {row : Account}

theorem Sound.put (sound : Sound s) (good : row.Sound) :
    Sound (s.put target row) where
  defaultFuel := sound.defaultFuel
  distinct := keys_set_nodup target row sound.distinct
  rows := every_set sound.rows good

theorem Change.sound (change : Change s fuel granted t) (sound : Sound s) : Sound t := by
  cases change with
  | same => exact sound
  | registered _ low => exact sound.put (opened_sound _ low)
  | shared found _ low enough =>
    refine (sound.put (give_sound (sound.rows _ _ found) low enough)).put (opened_sound _ ?_)
    omega
  | kept found keeps => exact sound.put (keeps.sound (sound.rows _ _ found))
  | expanded found fresh left => exact sound.put (expand_sound (sound.rows _ _ found) fresh left)

/-! Sums. -/

section
variable {target : ObligationId} {row row' : Account}

theorem totals_new (fresh : get? s.accounts target = none) :
    (s.put target row).totalLimit = s.totalLimit + row.fuelLimit ∧
    (s.put target row).totalUsed = s.totalUsed + row.fuelUsed := by
  rw [get?_eq_none_iff] at fresh
  exact ⟨total_set_new _ fresh, total_set_new _ fresh⟩

theorem totals_old (found : get? s.accounts target = some row) :
    (s.put target row').totalLimit = s.totalLimit + (row'.fuelLimit - row.fuelLimit) ∧
    (s.put target row').totalUsed = s.totalUsed + (row'.fuelUsed - row.fuelUsed) :=
  ⟨total_set_old _ found, total_set_old _ found⟩

end

theorem Change.totals (change : Change s fuel granted t) :
    t.totalLimit = s.totalLimit + fuel ∧ t.totalUsed = s.totalUsed + granted := by
  cases change with
  | same => simp
  | registered fresh _ =>
    obtain ⟨limits, used⟩ := totals_new fresh
    rw [limits, used]
    exact ⟨rfl, rfl⟩
  | @shared parent child row share found fresh _ _ =>
    obtain ⟨limits, used⟩ := @totals_old s parent row (row.give share) found
    have fresh' : get? (s.put parent (row.give share)).accounts child.obligationId = none := by
      unfold ObligationLedger.put
      rw [get?_set, if_neg, fresh]
      rintro rfl
      rw [found] at fresh
      cases fresh
    obtain ⟨limits', used'⟩ := @totals_new _ _ (opened child share) fresh'
    rw [limits', used', limits, used]
    dsimp only [Account.give, opened]
    omega
  | kept found keeps =>
    obtain ⟨limits, used⟩ := totals_old found
    rw [limits, used, keeps.fuelLimit, keeps.fuelUsed]
    omega
  | @expanded target row key found _ _ =>
    obtain ⟨limits, used⟩ := @totals_old s target row (row.expand key) found
    rw [limits, used]
    dsimp only [Account.expand]
    omega

/-! Counters. -/

structure Grows (old new : Account) : Prop where
  failureCount : old.failureCount ≤ new.failureCount
  consumedCostMicros : old.consumedCostMicros ≤ new.consumedCostMicros
  consumedAttempts : old.consumedAttempts ≤ new.consumedAttempts
  consumedTokens : old.consumedTokens ≤ new.consumedTokens

theorem Grows.refl (row : Account) : Grows row row :=
  ⟨Int.le_refl _, Int.le_refl _, Int.le_refl _, Int.le_refl _⟩

theorem Grows.trans {a b c : Account} (first : Grows a b) (second : Grows b c) : Grows a c where
  failureCount := Int.le_trans first.failureCount second.failureCount
  consumedCostMicros := Int.le_trans first.consumedCostMicros second.consumedCostMicros
  consumedAttempts := Int.le_trans first.consumedAttempts second.consumedAttempts
  consumedTokens := Int.le_trans first.consumedTokens second.consumedTokens

def Evolves (s t : ObligationLedger) : Prop :=
  ∀ id old, get? s.accounts id = some old → ∃ new, get? t.accounts id = some new ∧ Grows old new

theorem Evolves.refl (s : ObligationLedger) : Evolves s s :=
  fun _ old found => ⟨old, found, Grows.refl old⟩

theorem Evolves.trans {a b c : ObligationLedger} (first : Evolves a b) (second : Evolves b c) :
    Evolves a c := by
  intro id old found
  obtain ⟨mid, found', grows⟩ := first id old found
  obtain ⟨new, found'', grows'⟩ := second id mid found'
  exact ⟨new, found'', grows.trans grows'⟩

theorem Evolves.put (grows : ∀ old, get? s.accounts target = some old → Grows old row) :
    Evolves s (s.put target row) := by
  intro id old found
  unfold ObligationLedger.put
  by_cases here : target = id
  · subst here
    exact ⟨row, get?_set_self _ _ _, grows old found⟩
  · exact ⟨old, by rw [get?_set_ne _ _ here, found], Grows.refl old⟩

theorem Change.evolves (change : Change s fuel granted t) : Evolves s t := by
  cases change with
  | same => exact Evolves.refl s
  | registered fresh _ =>
    apply Evolves.put
    intro old found
    rw [fresh] at found
    cases found
  | @shared parent child row share found fresh _ _ =>
    apply Evolves.trans (b := s.put parent (row.give share))
    · apply Evolves.put
      intro old found'
      rw [found] at found'
      cases found'
      exact ⟨Int.le_refl _, Int.le_refl _, Int.le_refl _, Int.le_refl _⟩
    · apply Evolves.put
      intro old found'
      unfold ObligationLedger.put at found'
      rw [get?_set] at found'
      split at found'
      · next same =>
        rw [← same, found] at fresh
        cases fresh
      · rw [fresh] at found'
        cases found'
  | kept found keeps =>
    apply Evolves.put
    intro old found'
    rw [found] at found'
    cases found'
    exact ⟨keeps.failureCount, keeps.consumedCostMicros, keeps.consumedAttempts,
      keeps.consumedTokens⟩
  | expanded found _ _ =>
    apply Evolves.put
    intro old found'
    rw [found] at found'
    cases found'
    exact ⟨Int.le_refl _, Int.le_refl _, Int.le_refl _, Int.le_refl _⟩

end

/-! Runs. -/

def ObligationLedger.act (s : ObligationLedger) (operation : Operation) : ObligationLedger :=
  (perform operation s).2

def provided (s : ObligationLedger) : List Operation → Int
  | [] => 0
  | operation :: rest =>
    (match (perform operation s).1 with
      | .ok _ => operation.offers s
      | .error _ => 0) + provided (s.act operation) rest

def expansions (s : ObligationLedger) : List Operation → Nat
  | [] => 0
  | operation :: rest =>
    (match (perform operation s).1 with
      | .ok decision => admitted decision
      | .error _ => 0) + expansions (s.act operation) rest

variable {s : ObligationLedger}

theorem act_change (sound : Sound s) (operation : Operation) :
    Change s
      (match (perform operation s).1 with
        | .ok _ => operation.offers s
        | .error _ => 0)
      (match (perform operation s).1 with
        | .ok decision => admitted decision
        | .error _ => 0)
      (s.act operation) := by
  have atomic := perform_atomic sound.defaultFuel operation
  unfold ObligationLedger.act
  cases run : perform operation s with
  | mk outcome t =>
    cases outcome with
    | ok decision => exact atomic.ended run
    | error e =>
      rw [atomic.stopped run]
      exact .same

theorem run_change (sound : Sound s) (operations : List Operation) :
    Sound (Transitions.run ObligationLedger.act s operations) ∧
    (Transitions.run ObligationLedger.act s operations).totalLimit =
      s.totalLimit + provided s operations ∧
    (Transitions.run ObligationLedger.act s operations).totalUsed =
      s.totalUsed + expansions s operations ∧
    Evolves s (Transitions.run ObligationLedger.act s operations) := by
  induction operations generalizing s with
  | nil => exact ⟨sound, (Int.add_zero _).symm, (Int.add_zero _).symm, Evolves.refl s⟩
  | cons operation rest ih =>
    have change := act_change sound operation
    obtain ⟨limits, used⟩ := change.totals
    obtain ⟨sound', limits', used', evolves⟩ := ih (change.sound sound)
    refine ⟨sound', limits'.trans ?_, used'.trans ?_, change.evolves.trans evolves⟩
    · rw [limits, provided, Int.add_assoc]
    · rw [used, expansions, Int.natCast_add, Int.add_assoc]

theorem used_le_limit (sound : Sound s) : s.totalUsed ≤ s.totalLimit := by
  apply List.sum_le_sum
  rintro ⟨id, row⟩ inside
  exact (sound.rows id row (get?_eq_some_of_mem sound.distinct inside)).within

theorem init_sound {defaultFuel : Int} {start : ObligationLedger}
    (made : ObligationLedger.init defaultFuel = .ok start) :
    Sound start ∧ start.totalLimit = 0 ∧ start.totalUsed = 0 := by
  unfold ObligationLedger.init at made
  simp only [bind_eq_ok, Unique.exists_iff, PUnit.default_eq_unit, require_eq_ok] at made
  obtain ⟨low, ⟨rfl⟩⟩ := made
  exact ⟨⟨low, List.nodup_nil, fun id row found => by cases found⟩, rfl, rfl⟩

/-- Over every run fuel is conserved: it comes in by registration and separate grants only, so that
no more expansions are granted than fuel came in; costs and failures only grow, and a refused
operation changes nothing. -/
theorem fuel_conserved {defaultFuel : Int} {start : ObligationLedger}
    (made : ObligationLedger.init defaultFuel = .ok start) (operations : List Operation) :
    let s := Transitions.run ObligationLedger.act start operations
    (∀ id row, get? s.accounts id = some row → 0 ≤ row.fuelUsed ∧ row.fuelUsed ≤ row.fuelLimit ∧
      row.expansionKeys.Nodup ∧ (row.expansionKeys.length : Int) = row.fuelUsed) ∧
    (∀ later, (Transitions.run ObligationLedger.act start (operations ++ later)).totalLimit =
      s.totalLimit + provided s later) ∧
    (expansions start operations : Int) ≤ provided start operations ∧
    (∀ later, Evolves s (Transitions.run ObligationLedger.act start (operations ++ later))) ∧
    ∀ operation error t, perform operation s = (.error error, t) → t = s := by
  intro s
  obtain ⟨sound, nothing, unused⟩ := init_sound made
  obtain ⟨sound', limits, used, _⟩ := run_change sound operations
  refine ⟨fun id row found => ?_, fun later => ?_, ?_, fun later => ?_, ?_⟩
  · obtain ⟨nonneg, within, distinct, counted⟩ := sound'.rows id row found
    exact ⟨nonneg, within, distinct, counted⟩
  · rw [Transitions.run_append]
    exact (run_change sound' later).2.1
  · have enough := used_le_limit sound'
    rw [limits, used, nothing, unused] at enough
    omega
  · rw [Transitions.run_append]
    exact (run_change sound' later).2.2.2
  · intro operation error t refused
    exact (perform_atomic sound'.defaultFuel operation).stopped refused

/-- A duty with fuel for two expansions hands one to its child; its own second is refused. -/
theorem fuel_conserved_child :
    let operations : List Operation := [.register ⟨"a", "m", ["r"], "g", "mission", none, none,
        .unsatisfied, none, none⟩ (some 2),
      .openFrom ⟨"b", "a", .refinesParent, ["r"], { signatureId := "g" },
        .inheritParentFuelShare, some 1, none, none⟩
        ⟨"a", 0, 0, 0, 0, false, 2, 0, 0, 0, .unsatisfied, none⟩ none,
      .consumeFuel "a" ⟨"x", "1", none⟩]
    let later : List Operation := [.consumeFuel "a" ⟨"y", "1", none⟩,
      .consumeFuel "b" ⟨"y", "1", none⟩]
    let s := Transitions.run ObligationLedger.act ⟨3, []⟩ (operations ++ later)
    s.accounts.map (fun entry => (entry.1, entry.2.expansionKeys, entry.2.fuelUsed,
      entry.2.fuelLimit)) = [("a", [("x", "1")], 1, 1), ("b", [("y", "1")], 1, 1)] ∧
    s.totalLimit = 2 ∧ (expansions ⟨3, []⟩ (operations ++ later) : Int) ≤ 2 := by
  intro operations later
  have conserved := @fuel_conserved 3 ⟨3, []⟩ rfl operations
  have reached : (Transitions.run ObligationLedger.act ⟨3, []⟩ operations).totalLimit = 2 ∧
      provided (Transitions.run ObligationLedger.act ⟨3, []⟩ operations) later = 0 ∧
      provided ⟨3, []⟩ (operations ++ later) = 2 := by
    decide +kernel
  refine ⟨by decide +kernel, ?_, ?_⟩
  · rw [conserved.2.1 later, reached.1, reached.2.1]
    rfl
  · exact reached.2.2 ▸ (@fuel_conserved 3 ⟨3, []⟩ rfl (operations ++ later)).2.2.1

end Obligations
