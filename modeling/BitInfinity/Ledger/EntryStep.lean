import BitInfinity.Runtime.ApplyReceipt
import BitInfinity.Runtime.TransactionSpec

/-!
# The life of one account

An abstract account: whatever the runtime does, the values stored under an account change by
the steps of `EntryStep` only.  Its constructors say who may cause a step and what it keeps;
invariants of accounts are proved against them and not against the code.
-/

namespace BitInfinity

open Foundation

variable {config : StorageUsageConfig} {data : Bytes → Option Bytes} {base usage : StorageUsage}
  {E : Externals} {V : ContractRunner} {a : AccountId} {e : Entry} {acc : Account}

inductive EntryEvent
  /-- Tokens arrive, or a key is refunded. -/
  | receive
  /-- Tokens move between the liquid and the staked balance, rewards may be added. -/
  | restake
  /-- The excess over the genesis balance is swept. -/
  | sweep
  /-- A Bitcoin key is stored on its first use. -/
  | register (publicKey : PublicKey) (nonce : Nonce)
  /-- A transaction of the account is charged and becomes a receipt. -/
  | accept (as : ApplyState) (tx : Transaction)
  /-- A transaction of the account becomes a receipt without a charge. -/
  | drop (as : ApplyState) (tx : Transaction)
  /-- A transaction of the account burns its gas and fails. -/
  | payGas (tx : Transaction)
  /-- A delegate action of the account becomes a receipt with these actions. -/
  | delegate (epochHeight : EpochHeight) (actions : List Action)
  | create
  | createWithKey
  | createWithCode
  | setContract
  | call
  | stateInit
  | addKey (publicKey : PublicKey) (nonce : Nonce)
  | addGasKey (publicKey : PublicKey) (nonce : Nonce)
  | deleteKey (publicKey : PublicKey)
  | burn
  | delete

/-- At most one key changes, and only in what its use may change. -/
inductive Entry.TouchesKey (e : Entry) : Entry → Prop
  | refl : e.TouchesKey e
  | update {publicKey key} (key' : AccessKey)
      (hkey : e.getAccessKey publicKey = some key) (hshape : key.SameShape key')
      (hnonce : key.nonce ≤ key'.nonce) : e.TouchesKey (e.setAccessKey publicKey key')

/-- The guard on the transactions of Patoshi accounts, on the entry of the signer. -/
def GuardPasses (as : ApplyState) (e : Entry) (tx : Transaction) (total : Balance)
    (scheduled : Option PatoshiRecord) : Prop :=
  (e.patoshiRecord = .ok none ∧ scheduled = none) ∨
  ∃ record, e.patoshiRecord = .ok (some record) ∧
    validateLockedPatoshiTransaction tx.signerId tx.receiverId tx.actions total as.epochHeight
      as.protocolVersion record = .ok () ∧
    scheduled = maybeSchedulePatoshiUnlock record tx.receiverId tx.actions as.epochHeight

/-- The entry with the record written, when an unlock was scheduled. -/
def Entry.schedule (e : Entry) : Option PatoshiRecord → Entry
  | some record => e.setContractData patoshiRecordDataKey (some record.encode)
  | none => e

/-- What a record of contract data costs. -/
def recordCost (config : StorageUsageConfig) (key : Bytes) (value : Option Bytes) : StorageUsage :=
  value.elim 0 fun value => value.length + key.length + config.numExtraBytesRecord

/-- The usage covers `base` and any records of the data. -/
def DataCovered (config : StorageUsageConfig) (data : Bytes → Option Bytes)
    (base usage : StorageUsage) : Prop :=
  ∀ keys : Finset Bytes, base + ∑ key ∈ keys, recordCost config key (data key) ≤ usage

theorem DataCovered.add (h : DataCovered config data base usage) (extra : StorageUsage) :
    DataCovered config data (base + extra) (usage + extra) := by
  intro keys
  have hkeys := h keys
  unfold StorageUsage at *
  omega

/-- A write that is charged for what it adds, less what it takes away. -/
theorem DataCovered.write {usage' : StorageUsage} {key : Bytes} {value : Option Bytes}
    (h : DataCovered config data base usage)
    (husage : usage + recordCost config key value ≤ usage' + recordCost config key (data key)) :
    DataCovered config (Function.update data key value) base usage' := by
  intro keys
  have hothers : ∑ k ∈ keys.erase key, recordCost config k (Function.update data key value k) =
      ∑ k ∈ keys.erase key, recordCost config k (data k) :=
    Finset.sum_congr rfl fun k hk => by rw [Function.update_of_ne (Finset.ne_of_mem_erase hk)]
  have hwritten : ∑ k ∈ keys, recordCost config k (Function.update data key value k) ≤
      recordCost config key value + ∑ k ∈ keys.erase key, recordCost config k (data k) := by
    have hsub : keys ⊆ insert key (keys.erase key) := Finset.subset_insert_iff.mpr subset_rfl
    refine (Finset.sum_le_sum_of_subset hsub).trans ?_
    rw [Finset.sum_insert (Finset.notMem_erase key keys), hothers, Function.update_self]
  have hcovered := h (insert key (keys.erase key))
  rw [Finset.sum_insert (Finset.notMem_erase key keys)] at hcovered
  unfold StorageUsage at *
  omega

/-- The entry as an action sees it: the account is the working copy. -/
def ActionState.view (st : ActionState) : Entry := st.entry.setAccount st.account

inductive EntryStep (E : Externals) (V : ContractRunner) (config : StorageUsageConfig)
    (a : AccountId) : Entry → EntryEvent → Entry → Prop
  | receive {e e₁ acc} (amount : Balance) (hacc : e.account = some acc)
      (hkey : e.TouchesKey e₁) (hle : acc.amount ≤ amount) :
      EntryStep E V config a e .receive (e₁.setAccount (some { acc with amount }))
  | restake {e : Entry} {acc : Account} (amount locked : Balance) (hacc : e.account = some acc)
      (hle : acc.total ≤ amount + locked) :
      EntryStep E V config a e .restake (e.setAccount (some { acc with amount, locked }))
  | sweep {e acc record} (amount : Balance)
      (hacc : e.account = some acc) (hrecord : e.patoshiRecord = .ok (some record))
      (hfloor : record.genesisBalance ≤ acc.total → record.genesisBalance ≤ amount + acc.locked) :
      EntryStep E V config a e .sweep (e.setAccount (some { acc with amount }))
  | register {e acc publicKey} (nonce : Nonce)
      (hacc : e.account = some acc) (hbtc : isBitcoinAddress E.toCrypto a = true)
      (hderives : DerivesAddress E.toCrypto publicKey a)
      (habsent : e.getAccessKey publicKey = none) :
      EntryStep E V config a e (.register publicKey nonce)
        (e.setAccessKey publicKey (AccessKey.fullAccess.setNonce nonce))
  | accept {e acc key key' cost result scheduled} (as : ApplyState)
      (tx : Transaction) (hsigner : tx.signerId = a) (hacc : e.account = some acc)
      (hkey : e.getAccessKey tx.publicKey = some key)
      (hverified : Verified (e.gasKeyNonces tx.publicKey) acc key tx cost
        (chargedAmount tx cost) result key')
      (hguard : GuardPasses as e tx (result.newAccountAmount + acc.locked) scheduled) :
      EntryStep E V config a e (.accept as tx)
        ((e.schedule scheduled).charge tx.publicKey acc key' result)
  | drop {e acc key total scheduled} (as : ApplyState) (tx : Transaction)
      (hsigner : tx.signerId = a) (hacc : e.account = some acc)
      (hkey : e.getAccessKey tx.publicKey = some key)
      (hguard : GuardPasses as e tx total scheduled) :
      EntryStep E V config a e (.drop as tx) (e.schedule scheduled)
  | payGas {e acc key key' cost result} (tx : Transaction) (hsigner : tx.signerId = a)
      (hacc : e.account = some acc) (hkey : e.getAccessKey tx.publicKey = some key)
      (hverified : Verified (e.gasKeyNonces tx.publicKey) acc key tx cost 0 result key') :
      EntryStep E V config a e (.payGas tx) (e.charge tx.publicKey acc key' result)
  | delegate {e acc publicKey key record} (epochHeight : EpochHeight) (actions : List Action)
      (nonce : Nonce) (hacc : e.account = some acc) (hrecord : e.patoshiRecord = .ok record)
      (hunlocked : record.any (isPatoshiLocked · epochHeight) = false)
      (hkey : e.getAccessKey publicKey = some key) (hnonce : key.nonce < nonce) :
      EntryStep E V config a e (.delegate epochHeight actions)
        (e.setAccessKey publicKey (key.setNonce nonce))
  | create {e : Entry} (amount : Balance) (hnone : e.account = none) :
      EntryStep E V config a e .create
        (e.setAccount (some ⟨amount, 0, .none, config.numBytesAccount⟩))
  | createWithKey {e : Entry} (amount : Balance) (publicKey : PublicKey) (nonce : Nonce)
      (hnone : e.account = none)
      (htype : AccountId.getAccountType E.toCrypto a = .nearImplicitAccount) :
      EntryStep E V config a e .createWithKey
        ((e.setAccessKey publicKey (AccessKey.fullAccess.setNonce nonce)).setAccount
          (some ⟨amount, 0, .none,
            config.numBytesAccount + keyStorageCost config publicKey .fullAccess⟩))
  | createWithCode {e : Entry} (amount : Balance) (hash : CryptoHash) (usage : StorageUsage)
      (code : Bytes) (hnone : e.account = none)
      (htype : AccountId.getAccountType E.toCrypto a = .ethImplicitAccount)
      (husage : config.numBytesAccount + code.length ≤ usage) :
      EntryStep E V config a e .createWithCode
        ((e.setContractCode (some code)).setAccount (some ⟨amount, 0, .localCode hash, usage⟩))
  | setContract {e : Entry} {acc : Account} (contract : AccountContract) (usage : StorageUsage)
      (code : Option Bytes) (hacc : e.account = some acc) (hcontract : contract ≠ .none)
      (husage : usage = acc.storageUsage - contractStorageUsage e acc +
        contractStorageUsage (e.setContractCode code) { acc with contract }) :
      EntryStep E V config a e .setContract ((e.setContractCode code).setAccount
          (some { acc with contract, storageUsage := usage }))
  | call {e acc context outcome} (hacc : e.account = some acc) (hcontract : acc.contract ≠ .none)
      (haccount : context.account = acc) (hview : context.state.view = e)
      (hrun : V context = .ok outcome) (haborted : outcome.aborted = none) :
      EntryStep E V config a e .call { e with
          contractData := (applyWrites e outcome.writes).contractData
          account := some { acc with
            amount := outcome.balance, storageUsage := outcome.storageUsage } }
  | stateInit {e : Entry} (acc : Account) (data : Bytes → Option Bytes) (code : Option Bytes)
      (hdet : AccountId.isNearDeterministic a = true) (hcontract : acc.contract ≠ .none)
      (hnone : ∀ old, e.account = some old → old.contract = .none)
      (husage : ∀ base, DataCovered config e.contractData base
          ((e.account.map Account.storageUsage).getD config.numBytesAccount) →
        DataCovered config data (base + contractStorageUsage (e.setContractCode code) acc)
          acc.storageUsage) :
      EntryStep E V config a e .stateInit
        { e with account := some acc, contractData := data, contractCode := code }
  | addKey {e acc publicKey key} (nonce : Nonce)
      (hacc : e.account = some acc) (habsent : e.getAccessKey publicKey = none)
      (hinfo : key.gasKeyInfo = none) :
      EntryStep E V config a e (.addKey publicKey nonce)
        ((e.setAccessKey publicKey (key.setNonce nonce)).setAccount (some { acc with
          storageUsage := acc.storageUsage + keyStorageCost config publicKey key }))
  | addGasKey {e acc publicKey key info} (nonce : Nonce) (hacc : e.account = some acc)
      (habsent : e.getAccessKey publicKey = none) (hinfo : key.gasKeyInfo = some info) :
      EntryStep E V config a e (.addGasKey publicKey nonce)
        ((setGasKeyNonces (e.setAccessKey publicKey (key.setNonce 0)) publicKey info.numNonces
          (some nonce)).setAccount (some { acc with
            storageUsage := acc.storageUsage + keyStorageCost config publicKey key }))
  | deleteKey {e acc publicKey key}
      (hacc : e.account = some acc) (hkey : e.getAccessKey publicKey = some key)
      (hinfo : key.gasKeyInfo = none) :
      EntryStep E V config a e (.deleteKey publicKey)
        ((e.removeAccessKey publicKey).setAccount (some { acc with
          storageUsage := acc.storageUsage - keyStorageCost config publicKey key }))
  | deleteGasKey {e acc publicKey key info} (hacc : e.account = some acc)
      (hkey : e.getAccessKey publicKey = some key) (hinfo : key.gasKeyInfo = some info) :
      EntryStep E V config a e (.deleteKey publicKey)
        (((setGasKeyNonces e publicKey info.numNonces none).removeAccessKey publicKey).setAccount
          (some { acc with
            storageUsage := acc.storageUsage - keyStorageCost config publicKey key }))
  | burn {e : Entry} {acc : Account} (amount : Balance) (hacc : e.account = some acc) :
      EntryStep E V config a e .burn (e.setAccount (some { acc with amount }))
  | delete {e : Entry} {acc : Account} (hacc : e.account = some acc) :
      EntryStep E V config a e .delete .empty

theorem EntryStep.touch {e₁ : Entry} (hacc : e.account = some acc) (hkey : e.TouchesKey e₁) :
    EntryStep E V config a e .receive e₁ := by
  have hacc₁ : e₁.account = some acc := by
    cases hkey <;> exact hacc
  have hself : e₁.setAccount (some { acc with amount := acc.amount }) = e₁ := by
    rw [← hacc₁]
    rfl
  rw [← hself]
  exact .receive acc.amount hacc hkey le_rfl

theorem EntryStep.credit {amount : Balance} (hacc : e.account = some acc)
    (hle : acc.amount ≤ amount) :
    EntryStep E V config a e .receive (e.setAccount (some { acc with amount })) :=
  .receive amount hacc .refl hle

end BitInfinity
