import BitInfinity.Runtime.TransactionSpec

/-!
# Transactions that can pay

Whether a transaction passes verification can be read off from the state in which the loop meets
it: from its signature, its key and nonce, and what its signer holds.
-/

namespace BitInfinity

open Foundation

section Payable

variable {E : Externals} {as : ApplyState} {p q : ProcessingState E} {tx : SignedTransaction}
  {account : Account} {cost : TransactionCost} {key : AccessKey} {cache : TxCache}

/-- The key that a transaction is verified with: the stored one, or on its first use the one
that its signature recovers. -/
def signingKey (as : ApplyState) (p : ProcessingState E) (tx : SignedTransaction) :
    Option AccessKey :=
  let signerId := tx.transaction.signerId
  let publicKey := tx.transaction.publicKey
  match p.cache.accessKeys signerId publicKey with
  | some key => some key
  | none =>
    if recoveredKey E tx = some publicKey then
      some (firstUseKey as (p.trie.getAccessKey signerId publicKey) tx)
    else none

theorem signingKey_eq_some :
    signingKey as p tx = some key ↔ ∃ q, resolveAccessKey as p tx = (.ok key, q) := by
  constructor
  · intro h
    unfold signingKey at h
    dsimp only at h
    split at h
    · rename_i hcache
      cases h
      exact ⟨p, by simp [resolveAccessKey, hcache]⟩
    · rename_i hcache
      split_ifs at h with hrec
      cases h
      have hbtc := (recoveredKey_eq_some hrec).1
      exact ⟨_, by simp only [resolveAccessKey, hcache, hbtc, hrec, if_true]; rfl⟩
  · rintro ⟨q, h⟩
    rcases resolveAccessKey_eq_ok h with ⟨hcache, -⟩ | ⟨hcache, hrec, rfl, -⟩
    · simp [signingKey, hcache]
    · simp [signingKey, hcache, hrec]

/-- The nonce is fresh for the key, whose allowance or gas balance covers the cost. -/
def KeyPays (as : ApplyState) (gasKeyNonces : NonceIndex → Option Nonce) (key : AccessKey)
    (tx : Transaction) (cost : TransactionCost) : Prop :=
  match tx.nonce.nonceIndex with
  | none => key.gasKeyInfo = none ∧
      verifyNonce tx.nonce.nonce key.nonce (some as.blockHeight) = .ok () ∧
      ∃ allowance, checkAndComputeNewAllowance key tx.signerId tx.publicKey cost.totalCost =
        .ok allowance
  | some index => ∃ info current, key.gasKeyInfo = some info ∧ index < info.numNonces ∧
      gasKeyNonces index = some current ∧
      verifyNonce tx.nonce.nonce current (some as.blockHeight) = .ok () ∧
      cost.gasCost ≤ info.balance

/-- The transaction is valid and correctly signed, its key may pay for it, and its signer holds
the cost and the storage stake. -/
structure Payable (as : ApplyState) (p : ProcessingState E) (tx : SignedTransaction)
    (account : Account) (cost : TransactionCost) (key : AccessKey) : Prop where
  valid : validateTransaction E as.config tx as.protocolVersion = .ok ()
  cost_eq : txCost E.toCrypto as.config tx.transaction as.gasPrice = .ok cost
  account_eq : p.cache.accounts tx.transaction.signerId = some account
  key_eq : signingKey as p tx = some key
  keyPays : KeyPays as
    (p.cache.gasKeyNonces tx.transaction.signerId tx.transaction.publicKey) key tx.transaction cost
  permitted : verifyKeyPermission key tx.transaction = .ok ()
  amount_le : chargedAmount tx.transaction cost ≤ account.amount
  stake : checkStorageStake account (account.amount - chargedAmount tx.transaction cost)
    as.config = .ok ()

theorem verifyKeyPermission_legacyAllowance (version : ProtocolVersion) (key : AccessKey)
    (allowance : Option Balance) (tx : Transaction) :
    verifyKeyPermission (legacyAllowance version key allowance) tx =
      verifyKeyPermission key tx := by
  obtain ⟨_, permission⟩ := key
  unfold legacyAllowance
  split
  · rfl
  · cases allowance with
    | none => rfl
    | some allowance => cases permission <;> rfl

section Verdicts

variable {tx : Transaction} {config : RuntimeConfig} {height : Option BlockHeight}
  {result : VerificationResult} {key' : AccessKey}

theorem verifyAndChargeTxEphemeral_eq_success {version : ProtocolVersion} :
    verifyAndChargeTxEphemeral config account key tx cost height version =
        (.success result, key') ↔
      (key.gasKeyInfo = none ∧ verifyNonce tx.nonce.nonce key.nonce height = .ok () ∧
        ∃ allowance, checkAndComputeNewAllowance key tx.signerId tx.publicKey cost.totalCost =
            .ok allowance ∧ key' = legacyAllowance version key allowance ∧
          result = ⟨cost.gasBurnt, cost.gasRemaining, cost.receiptGasPrice, cost.burntAmount,
            account.amount - cost.totalCost, .regular tx.nonce.nonce allowance⟩) ∧
      verifyKeyPermission key tx = .ok () ∧ cost.totalCost ≤ account.amount ∧
      checkStorageStake account (account.amount - cost.totalCost) config = .ok () := by
  unfold verifyAndChargeTxEphemeral
  constructor
  · intro h
    cases hcharge : chargeRegular account key tx cost height with
    | error e => simp [hcharge] at h
    | ok charge =>
      obtain ⟨_, allowance⟩ := charge
      obtain ⟨hkey, hnonce, hle, rfl, hallowance⟩ := chargeRegular_eq_ok.mp hcharge
      simp only [hcharge, verifyKeyPermission_legacyAllowance] at h
      cases hstake : (checkStorageStake account (account.amount - cost.totalCost) config).mapError
          (storageStakeError tx.signerId) with
      | error e => simp [hstake] at h
      | ok u =>
        cases hpermission : verifyKeyPermission key tx with
        | error e => simp [hstake, hpermission] at h
        | ok u =>
          simp only [hstake, hpermission, Prod.mk.injEq, TxVerdict.success.injEq] at h
          exact ⟨⟨hkey, hnonce, allowance, hallowance, h.2.symm, h.1.symm⟩, rfl, hle,
            mapError_eq_ok.mp hstake⟩
  · rintro ⟨⟨hkey, hnonce, allowance, hallowance, rfl, rfl⟩, hpermission, hle, hstake⟩
    have hcharge := chargeRegular_eq_ok.mpr ⟨hkey, hnonce, hle, rfl, hallowance⟩
    simp [hcharge, verifyKeyPermission_legacyAllowance, hpermission, hstake, Except.mapError]

theorem verifyAndChargeGasKeyTxEphemeral_eq_success {current : Nonce} {index : NonceIndex} :
    verifyAndChargeGasKeyTxEphemeral config account key current tx index cost height =
        .success result ↔
      (∃ info, key.gasKeyInfo = some info ∧ index < info.numNonces ∧
        verifyNonce tx.nonce.nonce current height = .ok () ∧ cost.gasCost ≤ info.balance ∧
        result = ⟨cost.gasBurnt, cost.gasRemaining, cost.receiptGasPrice, cost.burntAmount,
          account.amount - cost.depositCost,
          .gasKey (info.balance - cost.gasCost) index tx.nonce.nonce⟩) ∧
      verifyKeyPermission key tx = .ok () ∧ cost.depositCost ≤ account.amount ∧
      checkStorageStake account (account.amount - cost.depositCost) config = .ok () := by
  unfold verifyAndChargeGasKeyTxEphemeral
  constructor
  · intro h
    cases hcharge : chargeGasKey key current tx index cost height with
    | error e => simp [hcharge] at h
    | ok balance =>
      obtain ⟨info, hinfo, hlt, hnonce, hle, hpermission, rfl⟩ := chargeGasKey_eq_ok.mp hcharge
      simp only [hcharge] at h
      cases hsub : checkedSub account.amount cost.depositCost with
      | none => simp [hsub] at h
      | some amount =>
        obtain ⟨hdeposit, rfl⟩ := checkedSub_eq_some.mp hsub
        rw [hsub] at h
        dsimp only at h
        split at h
        · rename_i hstake
          exact ⟨⟨info, hinfo, hlt, hnonce, hle, (TxVerdict.success.inj h).symm⟩, hpermission,
            hdeposit, hstake⟩
        · cases h
        · cases h
  · rintro ⟨⟨info, hinfo, hlt, hnonce, hle, rfl⟩, hpermission, hdeposit, hstake⟩
    have hcharge := chargeGasKey_eq_ok.mpr ⟨info, hinfo, hlt, hnonce, hle, hpermission, rfl⟩
    simp only [hcharge, checkedSub_eq_some.mpr ⟨hdeposit, rfl⟩, hstake]

theorem transactionVerdict_success_iff :
    (∃ result key', transactionVerdict as cache account key tx cost = (.success result, key')) ↔
      KeyPays as (cache.gasKeyNonces tx.signerId tx.publicKey) key tx cost ∧
      verifyKeyPermission key tx = .ok () ∧ chargedAmount tx cost ≤ account.amount ∧
      checkStorageStake account (account.amount - chargedAmount tx cost) as.config = .ok () := by
  unfold transactionVerdict KeyPays chargedAmount
  cases hindex : tx.nonce.nonceIndex with
  | none => simp [verifyAndChargeTxEphemeral_eq_success]
  | some index =>
    cases hcurrent : cache.gasKeyNonces tx.signerId tx.publicKey index with
    | none => simp [hcurrent]
    | some current => simp [hcurrent, verifyAndChargeGasKeyTxEphemeral_eq_success]

end Verdicts

theorem Loaded.gasKeyNonces_eq (h : Loaded as p tx account cost key q) :
    q.cache.gasKeyNonces = p.cache.gasKeyNonces := by
  rcases resolveAccessKey_eq_ok h.resolve_eq with ⟨-, rfl⟩ | ⟨-, -, -, rfl⟩ <;> rfl

/-- The payable transactions are those that pass verification. -/
theorem payable_iff : Payable as p tx account cost key ↔
    ∃ q, ∃ h : Loaded as p tx account cost key q, ∃ result key',
      h.verdict = (.success result, key') := by
  constructor
  · intro h
    obtain ⟨q, hresolve⟩ := signingKey_eq_some.mp h.key_eq
    have hl : Loaded as p tx account cost key q := ⟨h.valid, h.cost_eq, h.account_eq, hresolve⟩
    refine ⟨q, hl, transactionVerdict_success_iff.mpr ⟨?_, h.permitted, h.amount_le, h.stake⟩⟩
    rw [hl.gasKeyNonces_eq]
    exact h.keyPays
  · rintro ⟨q, hl, hverdict⟩
    obtain ⟨hpays, hpermitted, hle, hstake⟩ := transactionVerdict_success_iff.mp hverdict
    rw [hl.gasKeyNonces_eq] at hpays
    exact ⟨hl.valid, hl.cost_eq, hl.account_eq, signingKey_eq_some.mpr ⟨q, hl.resolve_eq⟩, hpays,
      hpermitted, hle, hstake⟩

end Payable

end BitInfinity
