import HarnessSdk.Graph.Missions
import HarnessSdk.Library.Metered
import HarnessSdk.Library.Tables

/-! Budget accounts: a tree, with a row of counters for each account. -/
namespace Budgets
open PyDict PyText Checks Graph Tables Metered

inductive Resource
  | tokens
  | costMicros
  | toolCalls
  | attempts
deriving DecidableEq

def Resource.name : Resource → String
  | .tokens => "tokens"
  | .costMicros => "cost_micros"
  | .toolCalls => "tool_calls"
  | .attempts => "attempts"

def Resource.limit (budget : Budget) : Resource → Option Nat
  | .tokens => budget.maxTokens
  | .costMicros => budget.maxCostMicros
  | .toolCalls => budget.maxToolCalls
  | .attempts => budget.maxAttempts

@[ext] structure Figures where
  tokens : Int
  costMicros : Int
  toolCalls : Int
  attempts : Int
deriving DecidableEq

def Figures.at (figures : Figures) : Resource → Int
  | .tokens => figures.tokens
  | .costMicros => figures.costMicros
  | .toolCalls => figures.toolCalls
  | .attempts => figures.attempts

namespace Figures

instance : Zero Figures := ⟨⟨0, 0, 0, 0⟩⟩

instance : Add Figures := ⟨fun a b =>
  ⟨a.tokens + b.tokens, a.costMicros + b.costMicros, a.toolCalls + b.toolCalls,
    a.attempts + b.attempts⟩⟩

instance : Neg Figures := ⟨fun a => ⟨-a.tokens, -a.costMicros, -a.toolCalls, -a.attempts⟩⟩

@[simp] theorem zero_at (r : Resource) : (0 : Figures).at r = 0 := by
  cases r <;> rfl

@[simp] theorem add_at (a b : Figures) (r : Resource) : (a + b).at r = a.at r + b.at r := by
  cases r <;> rfl

@[simp] theorem neg_at (a : Figures) (r : Resource) : (-a).at r = -a.at r := by
  cases r <;> rfl

theorem ext_at {a b : Figures} (same : ∀ r, a.at r = b.at r) : a = b :=
  Figures.ext (same .tokens) (same .costMicros) (same .toolCalls) (same .attempts)

end Figures

/-- The columns `reserved_*` are `reserved`; `charged` holds the columns `settled_*`, and
`attempts_created` as its attempts. -/
structure Account where
  accountId : String
  scope : String
  parentId : Option String
  missionId : String
  limits : Budget
  reserved : Figures
  charged : Figures
  unpricedSettlements : Int
  version : Int
deriving DecidableEq

def Account.remaining (account : Account) (resource : Resource) : Option Int :=
  (resource.limit account.limits).map fun limit =>
    limit - account.charged.at resource - account.reserved.at resource

theorem Account.remaining_eq_some {account : Account} {resource : Resource} {left : Int} :
    account.remaining resource = some left ↔ ∃ limit, resource.limit account.limits = some limit ∧
      left = limit - account.charged.at resource - account.reserved.at resource := by
  unfold Account.remaining
  cases resource.limit account.limits with
  | none => simp
  | some limit => simp [eq_comm]

inductive LedgerError
  | exhausted (accountId : String) (dimension : String) (requested remaining : Int)
  | refused (message : List Fragment)
deriving DecidableEq

structure Deltas where
  reserved : Figures
  charged : Figures
  unpriced : Int

def Account.add (account : Account) (deltas : Deltas) : Account :=
  { account with
    reserved := account.reserved + deltas.reserved
    charged := account.charged + deltas.charged
    unpricedSettlements := account.unpricedSettlements + deltas.unpriced
    version := account.version + 1 }

def accountOf (accounts : List Account) (accountId : String) : Except LedgerError Account :=
  match accounts.find? (·.accountId == accountId) with
  | none => .error (.refused [.text ("unknown budget account " ++ accountId)])
  | some account => .ok account

/-- The account and its ancestors; the fuel is one step for each account. -/
def chainFrom (accounts : List Account) : Nat → Option String → Except LedgerError (List Account)
  | _, none => .ok []
  | 0, some _ => .error (.refused [.text "the accounts form a cycle"])
  | fuel + 1, some accountId => do
    let account ← accountOf accounts accountId
    let rest ← chainFrom accounts fuel account.parentId
    pure (account :: rest)

def chainOf (accounts : List Account) (accountId : String) : Except LedgerError (List Account) :=
  chainFrom accounts accounts.length (some accountId)

/-! The tree. -/

/-- The account `id` lies in the subtree of `root`. -/
inductive Within (accounts : List Account) (root : String) : String → Prop
  | self {account} : account ∈ accounts → account.accountId = root → Within accounts root root
  | child {account parent} : account ∈ accounts → account.parentId = some parent →
      Within accounts root parent → Within accounts root account.accountId

structure Tree (accounts : List Account) : Prop where
  distinct : (accounts.map Account.accountId).Nodup
  rooted : ∀ before account after, accounts = before ++ account :: after →
    ∀ parent, account.parentId = some parent → ∃ p ∈ before, p.accountId = parent

section
variable {accounts : List Account}

theorem accountOf_eq_ok (distinct : (accounts.map Account.accountId).Nodup) (accountId : String)
    (account : Account) :
    accountOf accounts accountId = .ok account ↔
      account ∈ accounts ∧ account.accountId = accountId := by
  rw [← find?_key_eq_some distinct]
  unfold accountOf
  cases accounts.find? fun a => a.accountId == accountId <;> simp

theorem chainFrom_none (fuel : Nat) : chainFrom accounts fuel none = .ok [] := by
  cases fuel <;> rfl

theorem Tree.chain (tree : Tree accounts) {before after : List Account} {account : Account}
    (split : accounts = before ++ account :: after) (fuel : Nat) (enough : before.length < fuel) :
    ∃ chain, chainFrom accounts fuel (some account.accountId) = .ok chain ∧
      (∀ a ∈ chain, a ∈ before ++ [account]) ∧ (chain.map Account.accountId).Nodup ∧
      ∀ id, id ∈ chain.map Account.accountId ↔ Within accounts id account.accountId := by
  induction fuel generalizing before account after with
  | zero => omega
  | succ fuel ih =>
    have inside : account ∈ accounts := by simp [split]
    have found := (accountOf_eq_ok tree.distinct account.accountId account).mpr ⟨inside, rfl⟩
    have only : ∀ a ∈ accounts, a.accountId = account.accountId → a = account := fun a ha same =>
      List.inj_on_of_nodup_map tree.distinct ha inside same
    rw [chainFrom, found]
    cases parent : account.parentId with
    | none =>
      have alone : (Except.ok account >>= fun account => do
          let rest ← chainFrom accounts fuel account.parentId
          pure (account :: rest)) = (Except.ok [account] : Except LedgerError (List Account)) := by
        simp only [bind, Except.bind, parent, chainFrom_none]
        rfl
      refine ⟨[account], alone, by simp, by simp, fun id => ?_⟩
      simp only [List.map_cons, List.map_nil, List.mem_singleton]
      constructor
      · rintro rfl
        exact .self inside rfl
      · intro within
        generalize there : account.accountId = at' at within only
        cases within with
        | self => rfl
        | child ha above _ =>
          rw [only _ ha rfl, parent] at above
          cases above
    | some parentId =>
      obtain ⟨p, hp, rfl⟩ := tree.rooted before account after split parentId parent
      obtain ⟨early, late, rfl⟩ := List.append_of_mem hp
      have split' : accounts = early ++ p :: (late ++ account :: after) := by
        rw [split]
        simp
      obtain ⟨rest, ran, inside', nodup, members⟩ := ih split' (by
        simp only [List.length_append, List.length_cons] at enough
        omega)
      have apart : account.accountId ∉ rest.map Account.accountId := by
        intro again
        obtain ⟨a, ha, same⟩ := List.mem_map.mp again
        have distinct := tree.distinct
        rw [split, List.map_append, List.map_cons, List.nodup_append] at distinct
        refine distinct.2.2 a.accountId (List.mem_map_of_mem ?_) account.accountId
          List.mem_cons_self same
        rcases mem_snoc.mp (inside' a ha) with old | rfl
        · exact List.mem_append_left _ old
        · exact hp
      refine ⟨account :: rest, ?_, ?_, ?_, fun id => ?_⟩
      · simp only [bind, Except.bind, parent, ran]
        rfl
      · intro a ha
        rcases List.mem_cons.mp ha with rfl | later
        · simp
        · rcases mem_snoc.mp (inside' a later) with old | rfl
          · simp [old]
          · simp
      · rw [List.map_cons, List.nodup_cons]
        exact ⟨apart, nodup⟩
      · rw [List.map_cons, List.mem_cons, members]
        constructor
        · rintro (rfl | within)
          · exact .self inside rfl
          · exact .child inside parent within
        · intro within
          generalize there : account.accountId = at' at within only
          cases within with
          | self => exact Or.inl rfl
          | child ha above within =>
            rw [only _ ha rfl, parent, Option.some.injEq] at above
            exact Or.inr (above ▸ within)

theorem Tree.chainOf_spec (tree : Tree accounts) (accountId : String) :
    (∃ chain, chainOf accounts accountId = .ok chain ∧ (∀ a ∈ chain, a ∈ accounts) ∧
      (chain.map Account.accountId).Nodup ∧
      ∀ id, id ∈ chain.map Account.accountId ↔ Within accounts id accountId) ∨
    accountId ∉ accounts.map Account.accountId ∧ ∃ e, chainOf accounts accountId = .error e := by
  by_cases known : accountId ∈ accounts.map Account.accountId
  · obtain ⟨account, inside, rfl⟩ := List.mem_map.mp known
    obtain ⟨before, after, split⟩ := List.append_of_mem inside
    have short : before.length < accounts.length := by
      rw [split, List.length_append, List.length_cons]
      omega
    obtain ⟨chain, ran, from', nodup, members⟩ := tree.chain split accounts.length short
    refine Or.inl ⟨chain, ran, fun a ha => ?_, nodup, members⟩
    rw [split]
    rcases mem_snoc.mp (from' a ha) with old | rfl
    · simp [old]
    · simp
  · refine Or.inr ⟨known, ?_⟩
    have missing : accounts.find? (·.accountId == accountId) = none := by
      rw [List.find?_eq_none]
      intro a ha same
      exact known (List.mem_map.mpr ⟨a, ha, by simpa using same⟩)
    unfold chainOf
    cases accounts with
    | nil => exact ⟨_, rfl⟩
    | cons first rest =>
      rw [List.length_cons, chainFrom, accountOf, missing]
      exact ⟨_, rfl⟩

end

/-! The tree while accounts are written. -/

def Account.place (account : Account) : String × Option String :=
  (account.accountId, account.parentId)

section
variable {accounts accounts' : List Account}

theorem Within.known {root id : String} (within : Within accounts root id) :
    root ∈ accounts.map Account.accountId ∧ id ∈ accounts.map Account.accountId := by
  induction within with
  | self inside same => exact ⟨same ▸ List.mem_map_of_mem inside, same ▸ List.mem_map_of_mem inside⟩
  | child inside _ _ ih => exact ⟨ih.1, List.mem_map_of_mem inside⟩

section
variable (same : accounts.map Account.place = accounts'.map Account.place)
include same

theorem Within.of_places
    {root id : String} (within : Within accounts root id) : Within accounts' root id := by
  have twin : ∀ a ∈ accounts, ∃ a' ∈ accounts', a'.accountId = a.accountId ∧
      a'.parentId = a.parentId := by
    intro a ha
    have there : a.place ∈ accounts'.map Account.place := same ▸ List.mem_map_of_mem ha
    obtain ⟨a', ha', eq⟩ := List.mem_map.mp there
    exact ⟨a', ha', congrArg Prod.fst eq, congrArg Prod.snd eq⟩
  induction within with
  | self inside root =>
    obtain ⟨a', ha', eq, _⟩ := twin _ inside
    exact .self ha' (eq.trans root)
  | child inside above _ ih =>
    obtain ⟨a', ha', eq, eq'⟩ := twin _ inside
    exact eq ▸ .child ha' (eq'.trans above) ih

theorem within_of_places
    (root id : String) : Within accounts' root id ↔ Within accounts root id :=
  ⟨Within.of_places same.symm, Within.of_places same⟩

theorem ids_of_places :
    accounts'.map Account.accountId = accounts.map Account.accountId := by
  have eq := congrArg (List.map Prod.fst) same
  rw [List.map_map, List.map_map] at eq
  exact eq.symm

theorem Tree.of_places
    (tree : Tree accounts) : Tree accounts' where
  distinct := ids_of_places same ▸ tree.distinct
  rooted := by
    rintro before account after rfl parent above
    rw [List.map_append, List.map_cons, List.map_eq_append_iff] at same
    obtain ⟨before', rest, rfl, eq, same⟩ := same
    obtain ⟨account', after', rfl, place, _⟩ := List.map_eq_cons_iff.mp same
    obtain ⟨p, hp, named⟩ := tree.rooted before' account' after' rfl parent
      ((congrArg Prod.snd place).trans above)
    have there : p.place ∈ before.map Account.place := eq ▸ List.mem_map_of_mem hp
    obtain ⟨p', hp', eq'⟩ := List.mem_map.mp there
    exact ⟨p', hp', (congrArg Prod.fst eq').trans named⟩

end

variable {leaf : Account}

theorem within_leaf (tree : Tree accounts)
    (fresh : leaf.accountId ∉ accounts.map Account.accountId) {root id : String}
    (known : id ∈ accounts.map Account.accountId) :
    Within (accounts ++ [leaf]) root id ↔ Within accounts root id := by
  constructor
  · intro within
    induction within with
    | @self account inside same =>
      rcases mem_snoc.mp inside with old | rfl
      · exact .self old same
      · exact absurd (same ▸ known) fresh
    | @child account parent inside above _ ih =>
      rcases mem_snoc.mp inside with old | rfl
      · obtain ⟨before, after, split⟩ := List.append_of_mem old
        obtain ⟨p, hp, named⟩ := tree.rooted before account after split parent above
        have upper : parent ∈ accounts.map Account.accountId := by
          rw [← named, split]
          exact List.mem_map_of_mem (List.mem_append_left _ hp)
        exact .child old above (ih upper)
      · exact absurd known fresh
  · intro within
    induction within with
    | self inside same => exact .self (List.mem_append_left _ inside) same
    | @child account parent inside above within ih =>
      exact .child (List.mem_append_left _ inside) above (ih within.known.2)

theorem Tree.with_leaf (tree : Tree accounts)
    (fresh : leaf.accountId ∉ accounts.map Account.accountId)
    (above : ∀ parent, leaf.parentId = some parent → parent ∈ accounts.map Account.accountId) :
    Tree (accounts ++ [leaf]) where
  distinct := by
    rw [List.map_append, List.nodup_append]
    refine ⟨tree.distinct, by simp, ?_⟩
    rintro id hid _ hleaf rfl
    rw [List.map_cons, List.map_nil, List.mem_singleton] at hleaf
    exact fresh (hleaf ▸ hid)
  rooted := by
    intro before account after split parent up
    rcases List.eq_nil_or_concat after with rfl | ⟨after', last, rfl⟩
    · obtain ⟨rfl, rfl⟩ := List.append_singleton_inj.mp split
      obtain ⟨p, hp, named⟩ := List.mem_map.mp (above parent up)
      exact ⟨p, hp, named⟩
    · rw [List.concat_eq_append, ← List.cons_append, ← List.append_assoc] at split
      obtain ⟨split, _⟩ := List.append_singleton_inj.mp split
      exact tree.rooted before account after' split parent up

end

/-! Writing along a chain. -/

def along (accounts : List Account) (accountId : String) : List String :=
  match chainOf accounts accountId with
  | .ok chain => chain.map Account.accountId
  | .error _ => []

section
variable {accounts : List Account}

theorem Tree.mem_along (tree : Tree accounts) (accountId id : String) :
    id ∈ along accounts accountId ↔ Within accounts id accountId := by
  unfold along
  rcases tree.chainOf_spec accountId with ⟨chain, ran, _, _, members⟩ | ⟨unknown, e, ran⟩
  · rw [ran]
    exact members id
  · rw [ran]
    exact iff_of_false (by simp) fun within => unknown within.known.2

end
end Budgets
