import BitInfinity.Ledger.Validators

/-!
# The sweep at an epoch boundary

The sweep goes through the Patoshi index, takes from each locked account what it holds above
its genesis balance, as far as it is liquid, and credits the foundation in the end.  An account
that the index lists twice is met twice; the second time nothing is left to take.
-/

namespace BitInfinity

open Foundation

variable {E : Externals}

/-! ## What is swept from an account -/

def LockedAt (t : Trie E) (epochHeight : EpochHeight) (a : AccountId) (record : PatoshiRecord) :
    Prop :=
  getPatoshiRecord t a = .ok (some record) ∧ isPatoshiLocked record epochHeight = true

/-- The part of the excess over the genesis balance that is liquid; nothing when the account is
not locked. -/
def sweepOf (t : Trie E) (epochHeight : EpochHeight) (a : AccountId) : Balance :=
  match getPatoshiRecord t a, t.getAccount a with
  | .ok (some record), some account =>
    if isPatoshiLocked record epochHeight then
      min account.amount (account.amount + account.locked - record.genesisBalance)
    else 0
  | _, _ => 0

def Entry.debit (e : Entry) (amount : Balance) : Entry :=
  e.setAccount (e.account.map fun account => { account with amount := account.amount - amount })

def sweptTrie (t : Trie E) (epochHeight : EpochHeight) (swept : Finset AccountId) : Trie E :=
  { t with entries := fun a =>
      if a ∈ swept then (t.entries a).debit (sweepOf t epochHeight a) else t.entries a }

def Trie.supply (t : Trie E) (accounts : Finset AccountId) : Balance :=
  ∑ a ∈ accounts, ((t.getAccount a).map Account.total).getD 0

section Debit

variable {t : Trie E} {epochHeight : EpochHeight} {a : AccountId} {swept : Finset AccountId}

@[simp] theorem Entry.debit_zero (e : Entry) : e.debit 0 = e := by
  have hsame : (e.account.map fun account => { account with amount := account.amount - 0 }) =
      e.account := by
    cases e.account <;> rfl
  rw [Entry.debit, hsame, Entry.setAccount_self]

theorem sweepOf_of_locked {record : PatoshiRecord} {account : Account}
    (hlocked : LockedAt t epochHeight a record) (haccount : t.getAccount a = some account) :
    sweepOf t epochHeight a =
      min account.amount (account.amount + account.locked - record.genesisBalance) := by
  simp [sweepOf, hlocked.1, hlocked.2, haccount]

theorem sweepOf_eq_zero (h : ∀ record, ¬ LockedAt t epochHeight a record) :
    sweepOf t epochHeight a = 0 := by
  unfold sweepOf
  split
  · rename_i record account hrecord haccount
    rw [if_neg]
    intro hlocked
    exact h record ⟨hrecord, hlocked⟩
  · rfl

theorem sweepOf_le_amount {account : Account} (haccount : t.getAccount a = some account) :
    sweepOf t epochHeight a ≤ account.amount := by
  unfold sweepOf
  rw [haccount]
  split
  · rename_i record account' _ hsome
    obtain rfl : account = account' := Option.some.inj hsome
    split
    · exact Nat.min_le_left _ _
    · exact Nat.zero_le _
  · exact Nat.zero_le _

theorem sweepOf_of_getAccount_eq_none (h : t.getAccount a = none) :
    sweepOf t epochHeight a = 0 := by
  unfold sweepOf
  rw [h]
  split
  · next hsome => cases hsome
  · rfl

end Debit

/-! ## The loop -/

/-- What the sweep relies on: the index and the records that it lists can be read, the locked
accounts and the foundation exist, and the foundation is not locked itself. -/
structure Sweepable (t : Trie E) (epochHeight : EpochHeight) (index : List AccountId) : Prop where
  index_eq : getPatoshiIndex t = .ok index
  readable : ∀ a ∈ index, ∃ record, getPatoshiRecord t a = .ok record
  exists_account : ∀ a ∈ index, ∀ record, LockedAt t epochHeight a record →
    ∃ account, t.getAccount a = some account
  exists_foundation : ∃ account, t.getAccount foundationAccountId = some account
  foundation_not_locked : ∀ record, ¬ LockedAt t epochHeight foundationAccountId record

/-- The finite set covers the accounts of the trie, and their balances fit in 128 bits. -/
structure SupplyFits (t : Trie E) (accounts : Finset AccountId) : Prop where
  covers : ∀ a account, t.getAccount a = some account → a ∈ accounts
  supply_lt : t.supply accounts < 2 ^ 128

section Loop

variable {t : Trie E} {epochHeight : EpochHeight} {a : AccountId}
  {swept accounts : Finset AccountId} {index : List AccountId}

theorem sweptTrie_entries : (sweptTrie t epochHeight swept).entries a =
      if a ∈ swept then (t.entries a).debit (sweepOf t epochHeight a) else t.entries a := rfl

@[simp] theorem getPatoshiRecord_sweptTrie :
    getPatoshiRecord (sweptTrie t epochHeight swept) a = getPatoshiRecord t a := by
  apply Entry.patoshiRecord_congr
  rw [sweptTrie_entries]
  split <;> rfl

theorem getAccount_sweptTrie : (sweptTrie t epochHeight swept).getAccount a =
      (t.getAccount a).map fun account => { account with
        amount := account.amount - if a ∈ swept then sweepOf t epochHeight a else 0 } := by
  unfold Trie.getAccount
  rw [sweptTrie_entries]
  split
  · rfl
  · cases (t.entries a).account <;> rfl

theorem total_sweptTrie :
    (((sweptTrie t epochHeight swept).getAccount a).map Account.total).getD 0 +
        (if a ∈ swept then sweepOf t epochHeight a else 0) =
      ((t.getAccount a).map Account.total).getD 0 := by
  rw [getAccount_sweptTrie]
  cases haccount : t.getAccount a with
  | none => simp [sweepOf_of_getAccount_eq_none haccount]
  | some account =>
    have hle : sweepOf t epochHeight a ≤ account.amount := sweepOf_le_amount haccount
    simp only [Option.map_some, Option.getD_some, Account.total]
    unfold Balance at *
    split <;> omega

theorem sweepOf_eq_zero_of_not_covered (hfits : SupplyFits t accounts) (ha : a ∉ accounts) :
    sweepOf t epochHeight a = 0 := by
  cases haccount : t.getAccount a with
  | none => exact sweepOf_of_getAccount_eq_none haccount
  | some account => exact absurd (hfits.covers a account haccount) ha

theorem supply_sweptTrie (hfits : SupplyFits t accounts) :
    (sweptTrie t epochHeight swept).supply accounts + ∑ x ∈ swept, sweepOf t epochHeight x =
      t.supply accounts := by
  have hswept : ∑ x ∈ swept, sweepOf t epochHeight x =
      ∑ x ∈ accounts, if x ∈ swept then sweepOf t epochHeight x else 0 := by
    rw [Finset.sum_ite_mem]
    refine (Finset.sum_subset Finset.inter_subset_right ?_).symm
    intro x hx hnot
    refine sweepOf_eq_zero_of_not_covered hfits fun hcovered => ?_
    exact hnot (Finset.mem_inter.mpr ⟨hcovered, hx⟩)
  rw [hswept, Trie.supply, Trie.supply, ← Finset.sum_add_distrib]
  exact Finset.sum_congr rfl fun x _ => total_sweptTrie

theorem sum_sweepOf_lt (hfits : SupplyFits t accounts) :
    ∑ x ∈ swept, sweepOf t epochHeight x < 2 ^ 128 := by
  have hsupply : (sweptTrie t epochHeight swept).supply accounts +
      ∑ x ∈ swept, sweepOf t epochHeight x = t.supply accounts := supply_sweptTrie hfits
  have hlt := hfits.supply_lt
  unfold Balance at *
  omega

theorem total_le_supply {account : Account} (hmem : a ∈ accounts)
    (haccount : t.getAccount a = some account) : account.total ≤ t.supply accounts := by
  have hle : ((t.getAccount a).map Account.total).getD 0 ≤ t.supply accounts :=
    Finset.single_le_sum (f := fun x => ((t.getAccount x).map Account.total).getD 0)
      (fun _ _ => Nat.zero_le _) hmem
  simpa [haccount] using hle

theorem sweptTrie_insert_of_zero (hzero : sweepOf t epochHeight a = 0) :
    sweptTrie t epochHeight (insert a swept) = sweptTrie t epochHeight swept := by
  unfold sweptTrie
  congr 1
  funext x
  by_cases hx : x = a
  · subst hx
    simp [hzero]
  · simp [hx]

theorem sweptTrie_insert (ha : a ∉ swept) : sweptTrie t epochHeight (insert a swept) =
      (sweptTrie t epochHeight swept).setEntry a
        ((t.entries a).debit (sweepOf t epochHeight a)) := by
  unfold sweptTrie Trie.setEntry
  congr 1
  funext x
  by_cases hx : x = a
  · subst hx
    simp
  · simp [hx]

theorem sum_insert_of_zero (hzero : sweepOf t epochHeight a = 0) :
    ∑ x ∈ insert a swept, sweepOf t epochHeight x = ∑ x ∈ swept, sweepOf t epochHeight x :=
  Finset.sum_insert_of_eq_zero_if_notMem fun _ => hzero

theorem computePatoshiSweep_fst {amount locked genesis taken : Balance}
    (hfits : amount + locked < 2 ^ 128) :
    (computePatoshiSweep (amount - taken) locked genesis).1 =
      min (amount - taken) (amount - taken + locked - genesis) := by
  unfold computePatoshiSweep
  rw [saturatingAdd_eq]
  unfold Balance at *
  omega

theorem sweepAccount_of_locked (hfits : SupplyFits t accounts) {record : PatoshiRecord}
    {account : Account} (hlocked : LockedAt t epochHeight a record)
    (haccount : t.getAccount a = some account) :
    sweepAccount epochHeight (sweptTrie t epochHeight swept, ∑ x ∈ swept, sweepOf t epochHeight x)
        a =
      .ok (sweptTrie t epochHeight (insert a swept),
        ∑ x ∈ insert a swept, sweepOf t epochHeight x) := by
  have hsweep := sweepOf_of_locked hlocked haccount
  have htotal : account.amount + account.locked < 2 ^ 128 :=
    (total_le_supply (hfits.covers a account haccount) haccount).trans_lt hfits.supply_lt
  unfold sweepAccount
  simp only [getPatoshiRecord_sweptTrie, hlocked.1, Except.mapError, ok_bind, hlocked.2,
    Bool.not_true, Bool.false_eq_true, if_false, getAccount_sweptTrie, haccount, Option.map_some,
    okOr, computePatoshiSweep_fst htotal]
  by_cases ha : a ∈ swept
  · -- the account was met before
    rw [if_pos ha, if_pos, Finset.insert_eq_self.mpr ha]
    unfold Balance at *
    omega
  · rw [if_neg ha]
    simp only [Nat.sub_zero, ← hsweep]
    split
    · next hzero => rw [sweptTrie_insert_of_zero hzero, sum_insert_of_zero hzero]
    · have hle : sweepOf t epochHeight a ≤ account.amount := sweepOf_le_amount haccount
      have hlt : ∑ x ∈ insert a swept, sweepOf t epochHeight x < 2 ^ 128 := sum_sweepOf_lt hfits
      rw [Finset.sum_insert ha, add_comm] at hlt
      simp only [checkedSub, hle, if_true, checkedAdd, hlt, ok_bind]
      have hentry : (sweptTrie t epochHeight swept).entries a = t.entries a := by
        rw [sweptTrie_entries, if_neg ha]
      have hdebit : (t.entries a).debit (sweepOf t epochHeight a) =
          (t.entries a).setAccount (some { account with
            amount := account.amount - sweepOf t epochHeight a }) := by
        rw [Entry.debit, show (t.entries a).account = some account from haccount]
        rfl
      rw [Finset.sum_insert ha, add_comm, sweptTrie_insert ha, Trie.setAccount, hentry, hdebit]

theorem sweepAccount_sweptTrie (hfits : SupplyFits t accounts)
    (hreadable : ∃ record, getPatoshiRecord t a = .ok record)
    (hexists : ∀ record, LockedAt t epochHeight a record →
      ∃ account, t.getAccount a = some account) :
    sweepAccount epochHeight (sweptTrie t epochHeight swept, ∑ x ∈ swept, sweepOf t epochHeight x)
        a =
      .ok (sweptTrie t epochHeight (insert a swept),
        ∑ x ∈ insert a swept, sweepOf t epochHeight x) := by
  by_cases hlocked : ∃ record, LockedAt t epochHeight a record
  · obtain ⟨record, hlocked⟩ := hlocked
    obtain ⟨account, haccount⟩ := hexists record hlocked
    exact sweepAccount_of_locked hfits hlocked haccount
  · have hnone := not_exists.mp hlocked
    have hzero := sweepOf_eq_zero hnone
    obtain ⟨found, hfound⟩ := hreadable
    rw [sweptTrie_insert_of_zero hzero, sum_insert_of_zero hzero]
    unfold sweepAccount
    simp only [getPatoshiRecord_sweptTrie, hfound, Except.mapError, ok_bind]
    cases found with
    | none => rfl
    | some record =>
      have hopen : isPatoshiLocked record epochHeight = false := by
        by_contra hlocked
        exact hnone record ⟨hfound, by simpa using hlocked⟩
      simp [hopen]

theorem foldlM_sweepAccount (hfits : SupplyFits t accounts)
    (hreadable : ∀ a ∈ index, ∃ record, getPatoshiRecord t a = .ok record)
    (hexists : ∀ a ∈ index, ∀ record, LockedAt t epochHeight a record →
      ∃ account, t.getAccount a = some account) :
    index.foldlM (sweepAccount epochHeight)
        (sweptTrie t epochHeight swept, ∑ x ∈ swept, sweepOf t epochHeight x) =
      .ok (sweptTrie t epochHeight (swept ∪ index.toFinset),
        ∑ x ∈ swept ∪ index.toFinset, sweepOf t epochHeight x) := by
  induction index generalizing swept with
  | nil => simp [pure, Except.pure]
  | cons a rest ih =>
    have ha : a ∈ a :: rest := List.mem_cons_self
    rw [List.foldlM_cons, sweepAccount_sweptTrie hfits (hreadable a ha) (hexists a ha), ok_bind,
      ih (fun x hx => hreadable x (List.mem_cons_of_mem a hx))
        (fun x hx => hexists x (List.mem_cons_of_mem a hx))]
    have hunion : insert a swept ∪ rest.toFinset = swept ∪ (a :: rest).toFinset := by
      rw [List.toFinset_cons, Finset.union_insert, Finset.insert_union]
    rw [hunion]

@[simp] theorem sweptTrie_empty : sweptTrie t epochHeight ∅ = t := by
  simp [sweptTrie]

end Loop

/-! ## The whole sweep -/

/-- The trie after the sweep: the swept accounts lose their part, the foundation gets the sum. -/
def afterSweep (t : Trie E) (epochHeight : EpochHeight) (index : List AccountId)
    (foundation : Account) : Trie E :=
  (sweptTrie t epochHeight index.toFinset).setAccount foundationAccountId { foundation with
      amount := foundation.amount + ∑ x ∈ index.toFinset, sweepOf t epochHeight x }

section Sweep

variable {t : Trie E} {epochHeight : EpochHeight} {a : AccountId} {accounts : Finset AccountId}
  {index : List AccountId} {foundation : Account}

theorem Sweepable.sweepOf_foundation (h : Sweepable t epochHeight index) :
    sweepOf t epochHeight foundationAccountId = 0 :=
  sweepOf_eq_zero h.foundation_not_locked

theorem Sweepable.getAccount_foundation (h : Sweepable t epochHeight index)
    (hfoundation : t.getAccount foundationAccountId = some foundation) {swept : Finset AccountId} :
    (sweptTrie t epochHeight swept).getAccount foundationAccountId = some foundation := by
  rw [getAccount_sweptTrie, hfoundation, h.sweepOf_foundation]
  simp

theorem Trie.setAccount_self {account : Account} (h : t.getAccount a = some account) :
    t.setAccount a account = t := by
  rw [Trie.setAccount, ← h, Trie.getAccount, Entry.setAccount_self, Trie.setEntry_self]

theorem afterSweep_of_zero (hfoundation : t.getAccount foundationAccountId = some foundation)
    (hzero : ∀ a ∈ index, sweepOf t epochHeight a = 0) :
    afterSweep t epochHeight index foundation = t := by
  have hsum : ∑ x ∈ index.toFinset, sweepOf t epochHeight x = 0 :=
    Finset.sum_eq_zero fun x hx => hzero x (List.mem_toFinset.mp hx)
  have hswept : sweptTrie t epochHeight index.toFinset = t := by
    unfold sweptTrie
    congr 1
    funext a
    split
    · next ha => rw [hzero a (List.mem_toFinset.mp ha), Entry.debit_zero]
    · rfl
  rw [afterSweep, hsum, add_zero, hswept, Trie.setAccount_self hfoundation]

theorem Sweepable.credit_lt (h : Sweepable t epochHeight index) (hfits : SupplyFits t accounts)
    (hfoundation : t.getAccount foundationAccountId = some foundation) {swept : Finset AccountId} :
    foundation.amount + ∑ x ∈ swept, sweepOf t epochHeight x < 2 ^ 128 := by
  have hmem := hfits.covers _ _ hfoundation
  have hle : foundation.total ≤ (sweptTrie t epochHeight swept).supply accounts :=
    total_le_supply hmem (h.getAccount_foundation hfoundation)
  have hsupply : (sweptTrie t epochHeight swept).supply accounts +
      ∑ x ∈ swept, sweepOf t epochHeight x = t.supply accounts := supply_sweptTrie hfits
  have hlt := hfits.supply_lt
  unfold Account.total at hle
  unfold Balance at *
  omega

theorem sweepPatoshiExcess_eq (h : Sweepable t epochHeight index) (hfits : SupplyFits t accounts)
    (hfoundation : t.getAccount foundationAccountId = some foundation) :
    sweepPatoshiExcess t epochHeight = .ok (afterSweep t epochHeight index foundation) := by
  have hfold : index.foldlM (sweepAccount epochHeight) (t, 0) =
      .ok (sweptTrie t epochHeight index.toFinset,
        ∑ x ∈ index.toFinset, sweepOf t epochHeight x) := by
    have hall : index.foldlM (sweepAccount epochHeight)
        (sweptTrie t epochHeight ∅, ∑ x ∈ ∅, sweepOf t epochHeight x) = _ :=
      foldlM_sweepAccount hfits h.readable h.exists_account
    simpa using hall
  have hstill : (sweptTrie t epochHeight index.toFinset).getAccount foundationAccountId =
      some foundation := h.getAccount_foundation hfoundation
  unfold sweepPatoshiExcess
  rw [h.index_eq]
  simp only [Except.mapError, ok_bind, hfold, creditFoundation]
  split
  · next hzero => rw [afterSweep, hzero, add_zero, Trie.setAccount_self hstill]
  · have hlt : foundation.amount + ∑ x ∈ index.toFinset, sweepOf t epochHeight x < 2 ^ 128 :=
      h.credit_lt hfits hfoundation
    simp only [hstill, okOr, ok_bind, checkedAdd, hlt, if_true, afterSweep]

theorem getAccount_afterSweep : (afterSweep t epochHeight index foundation).getAccount a =
      if a = foundationAccountId then
        some { foundation with
          amount := foundation.amount + ∑ x ∈ index.toFinset, sweepOf t epochHeight x }
      else
        (t.getAccount a).map fun account => { account with
          amount := account.amount - if a ∈ index then sweepOf t epochHeight a else 0 } := by
  rw [afterSweep, Trie.getAccount_setAccount, getAccount_sweptTrie]
  simp only [List.mem_toFinset]

theorem afterSweep_contractData :
    ((afterSweep t epochHeight index foundation).entries a).contractData =
      (t.entries a).contractData := by
  have hswept : ((sweptTrie t epochHeight index.toFinset).entries a).contractData =
      (t.entries a).contractData := by
    rw [sweptTrie_entries]
    split <;> rfl
  rw [← hswept]
  exact Trie.setEntry_entries_apply _ _ _ Entry.contractData _ rfl

theorem getPatoshiRecord_afterSweep :
    getPatoshiRecord (afterSweep t epochHeight index foundation) a = getPatoshiRecord t a :=
  Entry.patoshiRecord_congr afterSweep_contractData

theorem getPatoshiIndex_afterSweep :
    getPatoshiIndex (afterSweep t epochHeight index foundation) = getPatoshiIndex t := by
  unfold getPatoshiIndex
  rw [afterSweep_contractData]

theorem lockedAt_afterSweep {record : PatoshiRecord} :
    LockedAt (afterSweep t epochHeight index foundation) epochHeight a record ↔
      LockedAt t epochHeight a record := by
  unfold LockedAt
  rw [getPatoshiRecord_afterSweep]

theorem Sweepable.sweepOf_afterSweep (h : Sweepable t epochHeight index) (ha : a ∈ index) :
    sweepOf (afterSweep t epochHeight index foundation) epochHeight a = 0 := by
  by_cases hlocked : ∃ record, LockedAt t epochHeight a record
  · obtain ⟨record, hlocked⟩ := hlocked
    obtain ⟨account, haccount⟩ := h.exists_account a ha record hlocked
    have hne : a ≠ foundationAccountId := by
      rintro rfl
      exact h.foundation_not_locked record hlocked
    have hafter : (afterSweep t epochHeight index foundation).getAccount a =
        some { account with amount := account.amount - sweepOf t epochHeight a } := by
      rw [getAccount_afterSweep, if_neg hne, haccount, if_pos ha]
      rfl
    rw [sweepOf_of_locked (lockedAt_afterSweep.mpr hlocked) hafter,
      sweepOf_of_locked hlocked haccount]
    dsimp only
    unfold Balance at *
    omega
  · refine sweepOf_eq_zero fun record hafter => ?_
    exact hlocked ⟨record, lockedAt_afterSweep.mp hafter⟩

theorem Sweepable.afterSweep (h : Sweepable t epochHeight index) :
    Sweepable (afterSweep t epochHeight index foundation) epochHeight index := by
  refine ⟨?_, ?_, ?_, ?_, ?_⟩
  · rw [getPatoshiIndex_afterSweep]
    exact h.index_eq
  · intro a ha
    rw [getPatoshiRecord_afterSweep]
    exact h.readable a ha
  · intro a ha record hlocked
    obtain ⟨_, haccount⟩ := h.exists_account a ha record (lockedAt_afterSweep.mp hlocked)
    rw [getAccount_afterSweep, haccount]
    split <;> exact ⟨_, rfl⟩
  · exact ⟨_, rfl⟩
  · intro record hlocked
    exact h.foundation_not_locked record (lockedAt_afterSweep.mp hlocked)

theorem Sweepable.supply_afterSweep (h : Sweepable t epochHeight index)
    (hfits : SupplyFits t accounts)
    (hfoundation : t.getAccount foundationAccountId = some foundation) :
    (BitInfinity.afterSweep t epochHeight index foundation).supply accounts =
      t.supply accounts := by
  have hmem : foundationAccountId ∈ accounts := hfits.covers _ _ hfoundation
  have hsupply : (sweptTrie t epochHeight index.toFinset).supply accounts +
      ∑ x ∈ index.toFinset, sweepOf t epochHeight x = t.supply accounts := supply_sweptTrie hfits
  rw [← hsupply, Trie.supply, Trie.supply, ← Finset.add_sum_erase _ _ hmem,
    ← Finset.add_sum_erase _ (fun a => ((Trie.getAccount _ a).map Account.total).getD 0) hmem]
  have hrest : ∀ a ∈ accounts.erase foundationAccountId,
      (((BitInfinity.afterSweep t epochHeight index foundation).getAccount a).map
        Account.total).getD 0 =
      (((sweptTrie t epochHeight index.toFinset).getAccount a).map Account.total).getD 0 := by
    intro a ha
    rw [getAccount_afterSweep, if_neg (Finset.ne_of_mem_erase ha), getAccount_sweptTrie]
    simp only [List.mem_toFinset]
  rw [Finset.sum_congr rfl hrest, getAccount_afterSweep, if_pos rfl,
    h.getAccount_foundation hfoundation]
  simp only [Option.map_some, Option.getD_some, Account.total]
  unfold Balance at *
  omega

end Sweep

/-! ## Exactness -/

/-- What a sweep does to a trie, account by account. -/
structure SweepEffect (t t' : Trie E) (epochHeight : EpochHeight) (index : List AccountId) :
    Prop where
  locked_eq : ∀ a, (t'.getAccount a).map Account.locked = (t.getAccount a).map Account.locked
  others : ∀ a, a ∉ index → a ≠ foundationAccountId → t'.entries a = t.entries a
  not_locked : ∀ a, a ≠ foundationAccountId → (∀ record, ¬ LockedAt t epochHeight a record) →
    t'.entries a = t.entries a
  debited : ∀ a ∈ index, ∀ record account, LockedAt t epochHeight a record →
    t.getAccount a = some account → t'.getAccount a = some { account with
        amount := account.amount - if record.genesisBalance < account.amount + account.locked then
            min account.amount (account.amount + account.locked - record.genesisBalance)
          else 0 }
  credited : ∀ account, t.getAccount foundationAccountId = some account →
    t'.getAccount foundationAccountId = some { account with
      amount := account.amount + ∑ a ∈ index.toFinset, sweepOf t epochHeight a }
  /-- Nothing but the balances of accounts is written. -/
  rest : (∀ a, (t'.entries a).setAccount (t.getAccount a) = t.entries a) ∧
    t'.mailboxes = t.mailboxes ∧ t'.globals = t.globals

section Exactness

variable {t : Trie E} {epochHeight : EpochHeight} {a : AccountId} {accounts : Finset AccountId}
  {index : List AccountId} {foundation : Account}

theorem afterSweep_entries_of_ne (hne : a ≠ foundationAccountId)
    (hzero : a ∈ index → sweepOf t epochHeight a = 0) :
    (afterSweep t epochHeight index foundation).entries a = t.entries a := by
  rw [afterSweep, Trie.setAccount, Trie.setEntry_entries_of_ne _ _ _ _ hne, sweptTrie_entries]
  split
  · next hmem => rw [hzero (List.mem_toFinset.mp hmem), Entry.debit_zero]
  · rfl

theorem Sweepable.effect (h : Sweepable t epochHeight index)
    (hfoundation : t.getAccount foundationAccountId = some foundation) :
    SweepEffect t (BitInfinity.afterSweep t epochHeight index foundation) epochHeight index := by
  constructor
  · intro a
    rw [getAccount_afterSweep]
    split
    · rename_i ha
      rw [ha, hfoundation]
      rfl
    · cases t.getAccount a <;> rfl
  · intro a hindex hne
    exact afterSweep_entries_of_ne hne fun hmem => absurd hmem hindex
  · intro a hne hopen
    exact afterSweep_entries_of_ne hne fun _ => sweepOf_eq_zero hopen
  · intro a ha record account hlocked haccount
    have hne : a ≠ foundationAccountId := by
      rintro rfl
      exact h.foundation_not_locked record hlocked
    rw [getAccount_afterSweep, if_neg hne, haccount, if_pos ha, Option.map_some,
      sweepOf_of_locked hlocked haccount]
    congr 2
    unfold Balance at *
    split <;> omega
  · intro account haccount
    obtain rfl : foundation = account := Option.some.inj (hfoundation.symm.trans haccount)
    rw [getAccount_afterSweep, if_pos rfl]
  · refine ⟨fun a => ?_, rfl, rfl⟩
    rw [BitInfinity.afterSweep, Trie.setAccount, Trie.setEntry_entries]
    by_cases ha : a = foundationAccountId
    · subst ha
      rw [if_pos rfl, sweptTrie_entries]
      split <;> rfl
    · rw [if_neg ha, sweptTrie_entries]
      split <;> rfl

end Exactness

/-- The sweep succeeds, moves exactly the liquid excess of the locked accounts of the index to
the foundation, keeps the supply, and leaves nothing for a second sweep of the epoch. -/
theorem sweep_exact {t : Trie E} {epochHeight : EpochHeight} {index : List AccountId}
    {accounts : Finset AccountId} (h : Sweepable t epochHeight index)
    (hfits : SupplyFits t accounts) :
    ∃ t', sweepPatoshiExcess t epochHeight = .ok t' ∧ t'.supply accounts = t.supply accounts ∧
      SweepEffect t t' epochHeight index ∧ sweepPatoshiExcess t' epochHeight = .ok t' := by
  obtain ⟨foundation, hfoundation⟩ := h.exists_foundation
  let t' := afterSweep t epochHeight index foundation
  have hsupply : t'.supply accounts = t.supply accounts := h.supply_afterSweep hfits hfoundation
  refine ⟨t', sweepPatoshiExcess_eq h hfits hfoundation, hsupply, h.effect hfoundation, ?_⟩
  have hfits' : SupplyFits t' accounts := by
    refine ⟨?_, hsupply ▸ hfits.supply_lt⟩
    intro a account haccount
    have hlocked := (h.effect hfoundation).locked_eq a
    rw [show (afterSweep t epochHeight index foundation).getAccount a = some account from
      haccount] at hlocked
    obtain ⟨old, hold, -⟩ := Option.map_eq_some_iff.mp hlocked.symm
    exact hfits.covers a old hold
  obtain ⟨_, hfoundation'⟩ := h.afterSweep.exists_foundation
  rw [sweepPatoshiExcess_eq h.afterSweep hfits' hfoundation', afterSweep_of_zero hfoundation']
  intro a ha
  exact h.sweepOf_afterSweep ha

def sampleSweepTrie : Trie .sample :=
  (setPatoshiRecord ((Trie.empty.setAccount foundationAccountId ⟨7, 0, .none, 100⟩).setAccount
    sampleAddress ⟨1400, 100, .none, 100⟩) sampleAddress ⟨1000, true, none⟩).setContractData
    foundationAccountId patoshiIndexDataKey (writeVec writeString [sampleAddress, sampleAddress])

theorem getAccount_sampleSweepTrie (a : AccountId) : sampleSweepTrie.getAccount a =
      if a = sampleAddress then some ⟨1400, 100, .none, 100⟩
      else if a = foundationAccountId then some ⟨7, 0, .none, 100⟩ else none := by
  rw [sampleSweepTrie, Trie.getAccount_setContractData, setPatoshiRecord,
    Trie.getAccount_setContractData, Trie.getAccount_setAccount, Trie.getAccount_setAccount]
  rfl

theorem sampleSweepTrie_sweepable : Sweepable sampleSweepTrie 0 [sampleAddress, sampleAddress] := by
  have hrecord : getPatoshiRecord sampleSweepTrie sampleAddress = .ok (some ⟨1000, true, none⟩) :=
    by decide +kernel
  have hnone : getPatoshiRecord sampleSweepTrie foundationAccountId = .ok none := by decide +kernel
  have hmem : ∀ a ∈ [sampleAddress, sampleAddress], a = sampleAddress := by simp
  refine ⟨by decide +kernel, ?_, ?_, ⟨⟨7, 0, .none, 100⟩, by decide +kernel⟩, ?_⟩
  · intro a ha
    rw [hmem a ha]
    exact ⟨_, hrecord⟩
  · intro a ha record _
    rw [hmem a ha, getAccount_sampleSweepTrie, if_pos rfl]
    exact ⟨_, rfl⟩
  · intro record hlocked
    have hsome := hnone.symm.trans hlocked.1
    cases hsome

theorem sweep_exact_sample : ∃ t', sweepPatoshiExcess sampleSweepTrie 0 = .ok t' ∧
      t'.getAccount sampleAddress = some ⟨900, 100, .none, 100⟩ ∧
      t'.getAccount foundationAccountId = some ⟨507, 0, .none, 100⟩ ∧
      sweepPatoshiExcess t' 0 = .ok t' := by
  have hfits : SupplyFits sampleSweepTrie {sampleAddress, foundationAccountId} := by
    refine ⟨?_, by decide +kernel⟩
    intro a account haccount
    rw [getAccount_sampleSweepTrie] at haccount
    split at haccount
    · next ha => simp [ha]
    · split at haccount
      · next ha => simp [ha]
      · cases haccount
  obtain ⟨t', hsweep, -, heffect, hagain⟩ := sweep_exact sampleSweepTrie_sweepable hfits
  have hlocked : LockedAt sampleSweepTrie 0 sampleAddress ⟨1000, true, none⟩ :=
    ⟨by decide +kernel, rfl⟩
  refine ⟨t', hsweep, ?_, ?_, hagain⟩
  · exact heffect.debited sampleAddress (by simp) _ ⟨1400, 100, .none, 100⟩ hlocked
      (by decide +kernel)
  · rw [heffect.credited ⟨7, 0, .none, 100⟩ (by decide +kernel)]
    decide +kernel

end BitInfinity
