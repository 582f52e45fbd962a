import HarnessSdk.Budgets.Tail

/-! What the operations can write, one change after another. -/
namespace Budgets
open PyDict PyText Checks Graph Tables Metered

def Store.ids (store : Store) : List String := store.accounts.map Account.accountId

section
variable (store : Store) (accountId : String)

def Store.charge (deltas : Deltas) : Store :=
  { store with
    accounts := amend (·.accountId ∈ along store.accounts accountId) (·.add deltas) store.accounts }

def Store.holdAttempts (attempts : Int) : Store :=
  if attempts = 0 then store else store.charge accountId ⟨⟨0, 0, 0, attempts⟩, 0, 0⟩

/-- What is asked for fits into what remains on the account and on its ancestors. -/
def Store.Room (amount : Figures) : Prop :=
  ∀ a ∈ store.accounts, Within store.accounts a.accountId accountId →
    ∀ r left, a.remaining r = some left → 0 < amount.at r → amount.at r ≤ left

end

structure Sound (store : Store) : Prop where
  tree : Tree store.accounts
  subjects : (store.reservations.map Reservation.subjectId).Nodup
  placed : ∀ row ∈ store.reservations, row.accountId ∈ store.ids
  holds : (store.holds.map TailHold.holdId).Nodup
  backed : ∀ hold ∈ store.holds, ∃ row ∈ store.reservations,
    row.subjectId = hold.subjectId ∧ row.accountId = hold.accountId
  unspent : ∀ hold ∈ store.holds, 0 ≤ hold.remainingAttempts

theorem Sound.empty : Sound Store.empty where
  tree := ⟨List.nodup_nil, fun before account after split => by simp [Store.empty] at split⟩
  subjects := List.nodup_nil
  placed := by simp [Store.empty]
  holds := List.nodup_nil
  backed := by simp [Store.empty]
  unspent := by simp [Store.empty]

def Reservation.close (row : Reservation) (charge : Figures) (cost : Option Int)
    (unpriced : Bool) : Reservation :=
  { row with
    state := .settled
    settledTokens := some charge.tokens
    settledCostMicros := cost
    settledToolCalls := some charge.toolCalls
    unpriced := unpriced }

def Reservation.gain (row : Reservation) (more : Figures) : Reservation :=
  { row with
    reservedTokens := row.reservedTokens + more.tokens
    reservedCostMicros := row.reservedCostMicros + more.costMicros
    reservedToolCalls := row.reservedToolCalls + more.toolCalls }

def Store.addRow (store : Store) (row : Reservation) : Store :=
  { store with reservations := store.reservations ++ [row] }

def Store.addTail (store : Store) (hold : TailHold) : Store :=
  { store with holds := store.holds ++ [hold] }

def Store.amendRow (store : Store) (subjectId : String) (f : Reservation → Reservation) : Store :=
  { store with reservations := amend (·.subjectId = subjectId) f store.reservations }

def Store.amendTail (store : Store) (holdId : String) (f : TailHold → TailHold) : Store :=
  { store with holds := amend (·.holdId = holdId) f store.holds }

structure Rules where
  charge : Figures → Prop
  usage : ImportedUsage → Prop

inductive Change (rules : Rules) (s : Store) : Store → Prop
  | opened {leaf : Account} : leaf.accountId ∉ s.ids →
      (∀ parent, leaf.parentId = some parent → parent ∈ s.ids) →
      leaf.reserved = 0 → leaf.charged = 0 →
      Change rules s { s with accounts := s.accounts ++ [leaf] }
  | reserved {row : Reservation} {attempts : Int} :
      (∀ old ∈ s.reservations, old.subjectId ≠ row.subjectId) → row.accountId ∈ s.ids →
      row.state = .reserved → 0 ≤ attempts →
      s.Room row.accountId (row.held + ⟨0, 0, 0, attempts⟩) →
      Change rules s ((s.charge row.accountId ⟨row.held, ⟨0, 0, 0, attempts⟩, 0⟩).addRow row)
  | returned {accountId : String} :
      (∀ a ∈ s.accounts, Within s.accounts a.accountId accountId → 1 ≤ a.charged.attempts) →
      Change rules s (s.charge accountId ⟨0, ⟨0, 0, 0, -1⟩, 0⟩)
  | grown {row : Reservation} {more : Figures} : row ∈ s.reservations → row.state = .reserved →
      more.attempts = 0 → s.Room row.accountId more →
      Change rules s ((s.charge row.accountId ⟨more, 0, 0⟩).amendRow row.subjectId (·.gain more))
  | imported {usage : List ImportedUsage} :
      ((∀ row ∈ s.usage, rules.usage row) → ∀ row ∈ usage, rules.usage row) →
      Change rules s { s with usage := usage }
  | settled {row : Reservation} {charge : Figures} {cost : Option Int} {unpriced : Bool} :
      row ∈ s.reservations → row.state = .reserved → rules.charge charge → charge.attempts = 0 →
      cost.getD 0 = charge.costMicros →
      Change rules s ((s.charge row.accountId
        ⟨-row.held, charge, if unpriced then 1 else 0⟩).amendRow row.subjectId
          (·.close charge cost unpriced))
  | placed {hold : TailHold} : (∀ old ∈ s.holds, old.holdId ≠ hold.holdId) →
      (∃ row ∈ s.reservations, row.subjectId = hold.subjectId ∧ row.accountId = hold.accountId) →
      hold.state = .held → 0 ≤ hold.remainingAttempts →
      s.Room hold.accountId ⟨0, 0, 0, hold.remainingAttempts⟩ →
      Change rules s ((s.holdAttempts hold.accountId hold.remainingAttempts).addTail hold)
  | deducted {hold : TailHold} {row : Reservation} {amounts : Figures} : hold ∈ s.holds →
      hold.state = .held → row ∈ s.reservations → row.state = .reserved →
      row.subjectId = hold.subjectId → (∀ r, 0 ≤ amounts.at r) →
      amounts.attempts ≤ hold.remainingAttempts →
      Change rules s (((s.charge hold.accountId ⟨-amounts, 0, 0⟩).amendTail hold.holdId
        fun h => { h with remainingAttempts := h.remainingAttempts - amounts.attempts }).amendRow
          row.subjectId (·.gain (-amounts)))
  | shifted {source target : Reservation} {amounts : Figures} : source ∈ s.reservations →
      target ∈ s.reservations → source.state = .reserved → target.state = .reserved →
      source.accountId = target.accountId → source.subjectId ≠ target.subjectId →
      Change rules s ((s.amendRow source.subjectId (·.gain (-amounts))).amendRow
        target.subjectId (·.gain amounts))
  | recorded (transfers : List TailTransfer) : Change rules s { s with transfers := transfers }
  | released {hold : TailHold} {reason : String} : hold ∈ s.holds → hold.state = .held →
      Change rules s ((s.holdAttempts hold.accountId (-hold.remainingAttempts)).amendTail
        hold.holdId fun h => { h with
          state := .released
          remainingAttempts := 0
          releaseReason := some reason })

/-! A change keeps the shape of the tables. -/

theorem places_amend (p : Account → Prop) [DecidablePred p] (deltas : Deltas)
    (accounts : List Account) :
    accounts.map Account.place = (amend p (·.add deltas) accounts).map Account.place :=
  (map_amend (f := (·.add deltas)) (fun _ => rfl) accounts).symm

namespace Sound
variable {s : Store}

theorem of_accounts (sound : Sound s) {accounts : List Account}
    (same : s.accounts.map Account.place = accounts.map Account.place) :
    Sound { s with accounts := accounts } where
  tree := sound.tree.of_places same
  subjects := sound.subjects
  placed := fun row inside => by
    unfold Store.ids
    rw [ids_of_places same]
    exact sound.placed row inside
  holds := sound.holds
  backed := sound.backed
  unspent := sound.unspent

theorem charge (sound : Sound s) (accountId : String) (deltas : Deltas) : Sound (s.charge accountId deltas) :=
  sound.of_accounts (places_amend _ deltas s.accounts)

theorem holdAttempts (sound : Sound s) (accountId : String) (attempts : Int) :
    Sound (s.holdAttempts accountId attempts) := by
  unfold Store.holdAttempts
  split
  · exact sound
  · exact sound.charge accountId _

theorem opened (sound : Sound s) {leaf : Account} (fresh : leaf.accountId ∉ s.ids)
    (above : ∀ parent, leaf.parentId = some parent → parent ∈ s.ids) :
    Sound { s with accounts := s.accounts ++ [leaf] } where
  tree := sound.tree.with_leaf fresh above
  subjects := sound.subjects
  placed := fun row inside => by
    have old := sound.placed row inside
    simp only [Store.ids, List.map_append, List.mem_append]
    exact Or.inl old
  holds := sound.holds
  backed := sound.backed
  unspent := sound.unspent

theorem addRow (sound : Sound s) {row : Reservation} (fresh : ∀ old ∈ s.reservations, old.subjectId ≠ row.subjectId)
    (known : row.accountId ∈ s.ids) : Sound (s.addRow row) where
  tree := sound.tree
  subjects := by
    change ((s.reservations ++ [row]).map Reservation.subjectId).Nodup
    rw [List.map_append, List.nodup_append]
    refine ⟨sound.subjects, by simp, ?_⟩
    intro subject inside other here
    obtain ⟨old, hold, rfl⟩ := List.mem_map.mp inside
    rw [List.map_cons, List.map_nil, List.mem_singleton] at here
    exact here ▸ fresh old hold
  placed := by
    intro r inside
    rcases mem_snoc.mp inside with old | rfl
    · exact sound.placed r old
    · exact known
  holds := sound.holds
  backed := by
    intro hold inside
    obtain ⟨r, hr, same⟩ := sound.backed hold inside
    exact ⟨r, List.mem_append_left _ hr, same⟩
  unspent := sound.unspent

theorem amendRow (sound : Sound s) {f : Reservation → Reservation} (subjectId : String)
    (subject : ∀ row, (f row).subjectId = row.subjectId)
    (account : ∀ row, (f row).accountId = row.accountId) : Sound (s.amendRow subjectId f) where
  tree := sound.tree
  subjects := by
    change ((amend _ f s.reservations).map Reservation.subjectId).Nodup
    rw [map_amend subject]
    exact sound.subjects
  placed := by
    intro row inside
    have there := List.mem_map_of_mem (f := Reservation.accountId) inside
    rw [Store.amendRow, map_amend account] at there
    obtain ⟨old, hold, same⟩ := List.mem_map.mp there
    exact same ▸ sound.placed old hold
  holds := sound.holds
  backed := by
    intro hold inside
    obtain ⟨row, hrow, same, same'⟩ := sound.backed hold inside
    refine ⟨if row.subjectId = subjectId then f row else row, mem_amend.mpr ⟨row, hrow, rfl⟩, ?_⟩
    split
    · exact ⟨(subject row).trans same, (account row).trans same'⟩
    · exact ⟨same, same'⟩
  unspent := sound.unspent

variable {hold : TailHold}

theorem addTail (sound : Sound s) (fresh : ∀ old ∈ s.holds, old.holdId ≠ hold.holdId)
    (backed : ∃ row ∈ s.reservations, row.subjectId = hold.subjectId ∧ row.accountId =
      hold.accountId) (unspent : 0 ≤ hold.remainingAttempts) :
    Sound (s.addTail hold) where
  tree := sound.tree
  subjects := sound.subjects
  placed := sound.placed
  holds := by
    change ((s.holds ++ [hold]).map TailHold.holdId).Nodup
    rw [List.map_append, List.nodup_append]
    refine ⟨sound.holds, by simp, ?_⟩
    intro id inside other here
    obtain ⟨old, hold, rfl⟩ := List.mem_map.mp inside
    rw [List.map_cons, List.map_nil, List.mem_singleton] at here
    exact here ▸ fresh old hold
  backed := by
    intro h inside
    rcases mem_snoc.mp inside with old | rfl
    · exact sound.backed h old
    · exact backed
  unspent := by
    intro h inside
    rcases mem_snoc.mp inside with old | rfl
    · exact sound.unspent h old
    · exact unspent

theorem amendTail (sound : Sound s) {f : TailHold → TailHold} (holdId : String)
    (key : ∀ hold, (f hold).holdId = hold.holdId)
    (backing : ∀ hold, (f hold).subjectId = hold.subjectId ∧ (f hold).accountId = hold.accountId)
    (unspent : ∀ hold ∈ s.holds, hold.holdId = holdId → 0 ≤ (f hold).remainingAttempts) :
    Sound (s.amendTail holdId f) where
  tree := sound.tree
  subjects := sound.subjects
  placed := sound.placed
  holds := by
    change ((amend _ f s.holds).map TailHold.holdId).Nodup
    rw [map_amend key]
    exact sound.holds
  backed := by
    intro hold inside
    obtain ⟨old, hold', rfl⟩ := mem_amend.mp inside
    split
    · rw [(backing old).1, (backing old).2]
      exact sound.backed old hold'
    · exact sound.backed old hold'
  unspent := by
    intro hold inside
    obtain ⟨old, hold', rfl⟩ := mem_amend.mp inside
    split
    · next same => exact unspent old hold' same
    · exact sound.unspent old hold'

theorem spendTail (sound : Sound s) (inside : hold ∈ s.holds) {attempts : Int}
    (enough : attempts ≤ hold.remainingAttempts) : Sound (s.amendTail hold.holdId fun h =>
      { h with remainingAttempts := h.remainingAttempts - attempts }) := by
  refine sound.amendTail hold.holdId ?_ ?_ ?_
  · exact fun _ => rfl
  · exact fun _ => ⟨rfl, rfl⟩
  · intro other there same
    have only : other = hold := List.inj_on_of_nodup_map sound.holds there inside same
    rw [only]
    exact Int.sub_nonneg_of_le enough

end Sound

variable {rules : Rules} (s : Store) (accountId : String) (deltas : Deltas)

theorem charge_ids : (s.charge accountId deltas).ids = s.ids :=
  ids_of_places (places_amend _ deltas s.accounts)

theorem charge_within (root id : String) :
    Within (s.charge accountId deltas).accounts root id ↔ Within s.accounts root id :=
  within_of_places (places_amend _ deltas s.accounts) root id

theorem mem_charge {s : Store} (sound : Sound s) {accountId : String} {deltas : Deltas} {a' : Account}
    (inside : a' ∈ (s.charge accountId deltas).accounts) :
    ∃ a ∈ s.accounts, Within s.accounts a.accountId accountId ∧ a' = a.add deltas ∨
      ¬ Within s.accounts a.accountId accountId ∧ a' = a := by
  obtain ⟨a, ha, rfl⟩ := mem_amend.mp inside
  have reached := sound.tree.mem_along accountId a.accountId
  refine ⟨a, ha, ?_⟩
  by_cases within : Within s.accounts a.accountId accountId
  · exact Or.inl ⟨within, if_pos (reached.mpr within)⟩
  · exact Or.inr ⟨within, if_neg fun listed => within (reached.mp listed)⟩

theorem holdAttempts_reservations (attempts : Int) :
    (s.holdAttempts accountId attempts).reservations = s.reservations ∧
      (s.holdAttempts accountId attempts).holds = s.holds := by
  unfold Store.holdAttempts
  split <;> exact ⟨rfl, rfl⟩

theorem Change.sound {s t : Store} (change : Change rules s t) (sound : Sound s) : Sound t := by
  cases change with
  | opened fresh above _ _ => exact sound.opened fresh above
  | @reserved row attempts fresh known _ _ _ =>
    exact (sound.charge row.accountId _).addRow fresh (by rw [charge_ids]; exact known)
  | returned _ => exact sound.charge _ _
  | grown _ _ _ _ => exact (sound.charge _ _).amendRow _ (fun _ => rfl) fun _ => rfl
  | imported _ => exact ⟨sound.1, sound.2, sound.3, sound.4, sound.5, sound.6⟩
  | settled _ _ _ _ _ => exact (sound.charge _ _).amendRow _ (fun _ => rfl) fun _ => rfl
  | @placed hold fresh backed _ unspent _ =>
    obtain ⟨rows, tails⟩ := holdAttempts_reservations s hold.accountId hold.remainingAttempts
    exact (sound.holdAttempts _ _).addTail (tails ▸ fresh) (rows ▸ backed) unspent
  | @deducted hold row amounts inside _ _ _ _ _ enough =>
    refine ((sound.charge _ _).spendTail inside enough).amendRow _ ?_ ?_ <;> exact fun _ => rfl
  | shifted _ _ _ _ _ _ =>
    refine (sound.amendRow _ ?_ ?_).amendRow _ ?_ ?_ <;> exact fun _ => rfl
  | recorded transfers => exact ⟨sound.1, sound.2, sound.3, sound.4, sound.5, sound.6⟩
  | @released hold reason _ _ =>
    exact (sound.holdAttempts _ _).amendTail _ (fun _ => rfl) (fun _ => ⟨rfl, rfl⟩) fun _ _ _ =>
      Int.le_refl 0

abbrev Changes (rules : Rules) : Store → Store → Prop :=
  Relation.ReflTransGen (Change rules)

theorem Changes.sound {s t : Store} (changes : Changes rules s t) (sound : Sound s) : Sound t := by
  induction changes with
  | refl => exact sound
  | tail _ last ih => exact last.sound ih

end Budgets
