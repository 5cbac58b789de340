import BitInfinity.Runtime.ProcessTransactions

/-!
# What processing one transaction can do

`TxStep` lists the ways in which the body of the transaction loop ends, with everything it has
established by then.  All later results about `processTransactions` are derived from it.
-/

namespace BitInfinity

open Foundation

section Registration

variable {E : Externals} (as : ApplyState)

/-! ## Registration of the signing key -/

/-- The key recovered from the signature, when it may sign for the Bitcoin account. -/
def recoveredKey (E : Externals) (tx : SignedTransaction) : Option PublicKey :=
  if isBitcoinAddress E.toCrypto tx.transaction.signerId then
    match recoverSecp256k1Signature E.toCrypto (E.transactionHash tx.transaction) tx.signature with
    | .ok (key, _) =>
      if tx.transaction.signerId ∈ deriveAllBitcoinAddresses E.toCrypto key then
        some (.secp256k1 key)
      else none
    | .error _ => none
  else none

/-- The key that a first transaction uses, given the key that is stored. -/
def firstUseKey (as : ApplyState) (stored : Option AccessKey) (tx : SignedTransaction) :
    AccessKey :=
  let key := stored.getD .fullAccess
  key.setNonce (max key.nonce (firstUseNonceFloor as.blockHeight tx.transaction.nonce.nonce))

theorem recoveredKey_eq_some {tx : SignedTransaction} {publicKey : PublicKey}
    (h : recoveredKey E tx = some publicKey) :
    isBitcoinAddress E.toCrypto tx.transaction.signerId = true ∧
      DerivesAddress E.toCrypto publicKey tx.transaction.signerId := by
  unfold recoveredKey at h
  split at h
  · rename_i hbtc
    split at h
    · rename_i key _ _
      split at h
      · rename_i hmem
        obtain rfl : .secp256k1 key = publicKey := by simpa using h
        exact ⟨hbtc, key, rfl, hmem⟩
      · simp at h
    · simp at h
  · simp at h

theorem verifyAndRegisterBitcoinTransaction_eq (t : Trie E) {tx : SignedTransaction}
    (hbtc : isBitcoinAddress E.toCrypto tx.transaction.signerId = true) :
    (∃ publicKey, recoveredKey E tx = some publicKey ∧
      verifyAndRegisterBitcoinTransaction tx.signature (E.transactionHash tx.transaction)
          tx.transaction.signerId t =
        .ok ((true, some publicKey),
          autoRegisterAccessKeyIfNeeded t tx.transaction.signerId publicKey)) ∨
    (recoveredKey E tx = none ∧
      ((∃ e, verifyAndRegisterBitcoinTransaction tx.signature (E.transactionHash tx.transaction)
          tx.transaction.signerId t = .error e) ∨
        verifyAndRegisterBitcoinTransaction tx.signature (E.transactionHash tx.transaction)
          tx.transaction.signerId t = .ok ((false, none), t))) := by
  unfold verifyAndRegisterBitcoinTransaction recoveredKey
  rw [if_pos hbtc, if_pos hbtc]
  cases recoverSecp256k1Signature E.toCrypto (E.transactionHash tx.transaction) tx.signature with
  | error e => simp
  | ok recovered =>
    simp only [ok_bind]
    split <;> simp

theorem autoRegister_eq (t : Trie E) {tx : SignedTransaction}
    (hbtc : isBitcoinAddress E.toCrypto tx.transaction.signerId = true) :
    autoRegister as t tx = match recoveredKey E tx with
      | none => (.error .invalidSignature, t)
      | some publicKey =>
        let registered := autoRegisterAccessKeyIfNeeded t tx.transaction.signerId publicKey
        if publicKey = tx.transaction.publicKey then
          (.ok true, raiseNonceFloor registered tx.transaction.signerId publicKey
            (firstUseNonceFloor as.blockHeight tx.transaction.nonce.nonce))
        else (.error .invalidSignature, registered) := by
  unfold autoRegister maybeAutoRegisterBitcoinAccessKey
  rw [hbtc]
  rcases verifyAndRegisterBitcoinTransaction_eq t hbtc with
    ⟨publicKey, hrec, hver⟩ | ⟨hrec, ⟨e, hver⟩ | hver⟩
  · rw [hrec, hver]
    by_cases hpk : publicKey = tx.transaction.publicKey <;> simp [hpk]
  · simp [hrec, hver]
  · simp [hrec, hver]

theorem raiseNonceFloor_autoRegister (t : Trie E) (tx : SignedTransaction) (a : AccountId)
    (publicKey : PublicKey) :
    raiseNonceFloor (autoRegisterAccessKeyIfNeeded t a publicKey) a publicKey
        (firstUseNonceFloor as.blockHeight tx.transaction.nonce.nonce) =
      t.setAccessKey a publicKey (firstUseKey as (t.getAccessKey a publicKey) tx) := by
  unfold autoRegisterAccessKeyIfNeeded raiseNonceFloor firstUseKey
  generalize firstUseNonceFloor as.blockHeight tx.transaction.nonce.nonce = floor
  cases hkey : t.getAccessKey a publicKey with
  | some key =>
    simp only [hkey, Option.getD_some]
    split
    · next hlt => rw [max_eq_right hlt.le]
    · rename_i hge
      have hself : key.setNonce (max key.nonce floor) = key := by
        rw [max_eq_left (not_lt.mp hge)]
        rfl
      rw [hself, Trie.setAccessKey, Entry.setAccessKey_self _ _ _ hkey, Trie.setEntry_self]
  | none =>
    have hnew : (t.setAccessKey a publicKey .fullAccess).getAccessKey a publicKey =
        some .fullAccess := by
      simp [Trie.setAccessKey, Trie.getAccessKey, Entry.getAccessKey_setAccessKey]
    simp only [hnew, Option.getD_none]
    split
    · rename_i hlt
      rw [max_eq_right hlt.le]
      simp [Trie.setAccessKey, Entry.setAccessKey_setAccessKey]
    · rename_i hge
      rw [max_eq_left (not_lt.mp hge)]
      rfl

theorem autoRegisterAccessKeyIfNeeded_idem (t : Trie E) (a : AccountId) (publicKey : PublicKey) :
    autoRegisterAccessKeyIfNeeded (autoRegisterAccessKeyIfNeeded t a publicKey) a publicKey =
      autoRegisterAccessKeyIfNeeded t a publicKey := by
  unfold autoRegisterAccessKeyIfNeeded
  cases hkey : t.getAccessKey a publicKey with
  | some key => simp [hkey]
  | none => simp [Trie.setAccessKey, Trie.getAccessKey, Entry.getAccessKey_setAccessKey]

/-! ## The access key of a transaction -/

/-- The signer's key as the loop finds it, with the state after a possible registration. -/
def resolveAccessKey (p : ProcessingState E) (tx : SignedTransaction) :
    Except InvalidTxError AccessKey × ProcessingState E :=
  let signerId := tx.transaction.signerId
  let publicKey := tx.transaction.publicKey
  match p.cache.accessKeys signerId publicKey with
  | some key => (.ok key, p)
  | none =>
    if isBitcoinAddress E.toCrypto signerId then
      match recoveredKey E tx with
      | none => (.error .invalidSignature, p)
      | some recovered =>
        if recovered = publicKey then
          let key := firstUseKey as (p.trie.getAccessKey signerId publicKey) tx
          (.ok key, { p with
            trie := p.trie.setAccessKey signerId publicKey key
            cache := p.cache.setAccessKey signerId publicKey (some key) })
        else
          (.error .invalidSignature,
            { p with trie := autoRegisterAccessKeyIfNeeded p.trie signerId recovered })
    else
      (.error (.invalidAccessKeyError (.accessKeyNotFound signerId publicKey)), p)

@[simp] theorem TxCache.accessKeys_setAccessKey_self (c : TxCache) (a : AccountId)
    (publicKey : PublicKey) (key : Option AccessKey) :
    (c.setAccessKey a publicKey key).accessKeys a publicKey = key := by
  simp [TxCache.setAccessKey]

theorem attemptRegistration_eq (p : ProcessingState E) {tx : SignedTransaction}
    (hbtc : isBitcoinAddress E.toCrypto tx.transaction.signerId = true) :
    attemptRegistration as p tx = match recoveredKey E tx with
      | none => (.error .invalidSignature, p)
      | some recovered =>
        if recovered = tx.transaction.publicKey then
          let key := firstUseKey as
            (p.trie.getAccessKey tx.transaction.signerId tx.transaction.publicKey) tx
          (.ok true, { p with
            trie := p.trie.setAccessKey tx.transaction.signerId tx.transaction.publicKey key
            cache := p.cache.setAccessKey tx.transaction.signerId tx.transaction.publicKey
              (some key) })
        else
          (.error .invalidSignature, { p with
            trie := autoRegisterAccessKeyIfNeeded p.trie tx.transaction.signerId recovered }) := by
  unfold attemptRegistration
  rw [autoRegister_eq as p.trie hbtc]
  cases recoveredKey E tx with
  | none => rfl
  | some recovered =>
    by_cases hpk : recovered = tx.transaction.publicKey
    · simp [hpk, raiseNonceFloor_autoRegister]
    · simp [hpk]

theorem loadAccessKey_recoverAccessKey (p : ProcessingState E) (tx : SignedTransaction) :
    loadAccessKey as (recoverAccessKey as p tx) tx = resolveAccessKey as p tx := by
  unfold recoverAccessKey resolveAccessKey
  cases hcache : p.cache.accessKeys tx.transaction.signerId tx.transaction.publicKey with
  | some key => simp [loadAccessKey, hcache]
  | none =>
    by_cases hbtc : isBitcoinAddress E.toCrypto tx.transaction.signerId = true
    · simp only [hbtc, Option.isNone_none, Bool.and_self, if_true]
      rw [attemptRegistration_eq as p hbtc]
      cases hrec : recoveredKey E tx with
      | none =>
        unfold loadAccessKey
        simp [hcache, hbtc, attemptRegistration_eq as p hbtc, hrec]
      | some recovered =>
        by_cases hpk : recovered = tx.transaction.publicKey
        · simp [hpk, loadAccessKey, hcache]
        · unfold loadAccessKey
          simp [hcache, hbtc, attemptRegistration_eq as _ hbtc, hrec, hpk,
            autoRegisterAccessKeyIfNeeded_idem]
    · simp [hbtc, loadAccessKey, hcache]

end Registration

/-! ## Verdicts -/

section Verdicts

/-- What the account itself pays: a gas key pays for the gas of its transactions. -/
def chargedAmount (tx : Transaction) (cost : TransactionCost) : Balance :=
  match tx.nonce.nonceIndex with
  | none => cost.totalCost
  | some _ => cost.depositCost

/-- The nonce check that a transaction passed and the update of its key that follows;
`gasKeyNonces` are the nonces of its key if that is a gas key. -/
inductive KeyUse (gasKeyNonces : NonceIndex → Option Nonce) (key : AccessKey)
    (tx : Transaction) : AccessKeyUpdate → Prop
  | regular (allowance : Option Balance) (hindex : tx.nonce.nonceIndex = none)
      (hkey : key.gasKeyInfo = none) (hnonce : key.nonce < tx.nonce.nonce) :
      KeyUse gasKeyNonces key tx (.regular tx.nonce.nonce allowance)
  | gasKey {index info current} (balance : Balance)
      (hindex : tx.nonce.nonceIndex = some index) (hkey : key.gasKeyInfo = some info)
      (hlt : index < info.numNonces) (hcurrent : gasKeyNonces index = some current)
      (hnonce : current < tx.nonce.nonce) :
      KeyUse gasKeyNonces key tx (.gasKey balance index tx.nonce.nonce)

variable {as : ApplyState} {cache : TxCache} {account : Account} {key key' : AccessKey}
  {tx : Transaction} {cost : TransactionCost} {result : VerificationResult}

variable {current : Nonce} {height : Option BlockHeight} {index : NonceIndex}
  {error : InvalidTxError}

theorem verifyNonce_eq_ok {txNonce : Nonce}
    (h : verifyNonce txNonce current height = .ok ()) : current < txNonce := by
  obtain ⟨_, hlt, _⟩ := bind_eq_ok.mp h
  simpa using hlt

theorem checkAndComputeNewAllowance_eq_some {total allowance : Balance}
    (h : checkAndComputeNewAllowance key tx.signerId tx.publicKey total = .ok (some allowance)) :
    ∃ old, key.permission.functionCallPermission.bind FunctionCallPermission.allowance =
      some old := by
  unfold checkAndComputeNewAllowance at h
  split at h
  · cases h
  · next old hold => exact ⟨old, hold⟩

theorem chargeRegular_eq_ok {newAmount : Balance} {allowance : Option Balance} :
    chargeRegular account key tx cost height = .ok (newAmount, allowance) ↔
      key.gasKeyInfo = none ∧ verifyNonce tx.nonce.nonce key.nonce height = .ok () ∧
      cost.totalCost ≤ account.amount ∧ newAmount = account.amount - cost.totalCost ∧
      checkAndComputeNewAllowance key tx.signerId tx.publicKey cost.totalCost = .ok allowance := by
  unfold chargeRegular
  cases hkey : key.gasKeyInfo with
  | some info => simp
  | none =>
    simp only [ok_bind, bind_eq_ok, okOr_eq_ok, checkedSub_eq_some, true_and]
    constructor
    · rintro ⟨_, hnonce, amount, ⟨hle, rfl⟩, _, hallowance, ⟨⟩⟩
      exact ⟨hnonce, hle, rfl, hallowance⟩
    · rintro ⟨hnonce, hle, rfl, hallowance⟩
      exact ⟨(), hnonce, _, ⟨hle, rfl⟩, allowance, hallowance, rfl⟩

theorem chargeGasKey_eq_ok {balance : Balance} :
    chargeGasKey key current tx index cost height = .ok balance ↔
      ∃ info, key.gasKeyInfo = some info ∧ index < info.numNonces ∧
        verifyNonce tx.nonce.nonce current height = .ok () ∧ cost.gasCost ≤ info.balance ∧
        verifyKeyPermission key tx = .ok () ∧ balance = info.balance - cost.gasCost := by
  unfold chargeGasKey
  simp only [bind_eq_ok, okOr_eq_ok, checkedSub_eq_some, ensure_eq_ok, decide_eq_true_eq]
  constructor
  · rintro ⟨info, hinfo, _, hindex, _, hnonce, _, ⟨hle, rfl⟩, _, hpermission, ⟨⟩⟩
    exact ⟨info, hinfo, hindex, hnonce, hle, hpermission, rfl⟩
  · rintro ⟨info, hinfo, hindex, hnonce, hle, hpermission, rfl⟩
    exact ⟨info, hinfo, (), hindex, (), hnonce, _, ⟨hle, rfl⟩, (), hpermission, rfl⟩

theorem legacyAllowance_sameShape (version : ProtocolVersion) {total : Balance}
    {allowance : Option Balance}
    (h : checkAndComputeNewAllowance key tx.signerId tx.publicKey total = .ok allowance) :
    key.SameShape (legacyAllowance version key allowance) ∧
      (legacyAllowance version key allowance).nonce = key.nonce := by
  unfold legacyAllowance
  split
  · exact ⟨.refl key, rfl⟩
  · cases allowance with
    | none => exact ⟨.refl key, rfl⟩
    | some allowance =>
      obtain ⟨_, hold⟩ := checkAndComputeNewAllowance_eq_some h
      exact ⟨AccessKey.sameShape_setAllowance hold _ _, rfl⟩

/-- What a verdict with a charge tells about the transaction; `paid` is what the account pays. -/
structure Verified (gasKeyNonces : NonceIndex → Option Nonce) (account : Account)
    (key : AccessKey) (tx : Transaction) (cost : TransactionCost) (paid : Balance)
    (result : VerificationResult) (key' : AccessKey) : Prop where
  gasBurnt_eq : result.gasBurnt = cost.gasBurnt
  burntAmount_eq : result.burntAmount = cost.burntAmount
  paid_le : paid ≤ account.amount
  amount_eq : result.newAccountAmount = account.amount - paid
  use : KeyUse gasKeyNonces key tx result.accessKeyUpdate
  sameShape : key.SameShape (result.applyAccessKey key')
  nonce_eq : key'.nonce = key.nonce

/-- What a verdict that charges was given for; a deposit that failed is not paid. -/
def TxVerdict.Verifies (config : RuntimeConfig) (gasKeyNonces : NonceIndex → Option Nonce)
    (account : Account) (key : AccessKey) (tx : Transaction) (cost : TransactionCost)
    (key' : AccessKey) : TxVerdict → Prop
  | .success result =>
    Verified gasKeyNonces account key tx cost (chargedAmount tx cost) result key' ∧
      checkStorageStake account result.newAccountAmount config = .ok ()
  | .depositFailed result _ => Verified gasKeyNonces account key tx cost 0 result key'
  | .failed _ => True

theorem verifyAndChargeTxEphemeral_verifies {version : ProtocolVersion}
    (hindex : tx.nonce.nonceIndex = none) :
    (verifyAndChargeTxEphemeral as.config account key tx cost height version).1.Verifies as.config
      (cache.gasKeyNonces tx.signerId tx.publicKey) account key tx cost
      (verifyAndChargeTxEphemeral as.config account key tx cost height version).2 := by
  unfold verifyAndChargeTxEphemeral
  cases hcharge : chargeRegular account key tx cost height with
  | error e => trivial
  | ok charge =>
    obtain ⟨newAmount, allowance⟩ := charge
    obtain ⟨hkey, hnonce, hle, hamount, hallowance⟩ := chargeRegular_eq_ok.mp hcharge
    obtain ⟨hshape, hlegacy⟩ := @legacyAllowance_sameShape key tx version _ _ hallowance
    dsimp only
    cases hstake : (checkStorageStake account newAmount as.config).mapError
        (storageStakeError tx.signerId) with
    | error e => trivial
    | ok u =>
      cases verifyKeyPermission (legacyAllowance version key allowance) tx with
      | error e => trivial
      | ok u =>
        simp only [TxVerdict.Verifies, chargedAmount, hindex]
        refine ⟨⟨rfl, rfl, hle, hamount, .regular _ hindex hkey (verifyNonce_eq_ok hnonce), ?_,
            hlegacy⟩,
          mapError_eq_ok.mp hstake⟩
        cases allowance with
        | none => exact hshape.trans (AccessKey.sameShape_setNonce _ _)
        | some allowance =>
          obtain ⟨_, hold⟩ := checkAndComputeNewAllowance_eq_some hallowance
          have hset : (legacyAllowance version key (some allowance)).permission.setAllowance
              (some allowance) = key.permission.setAllowance (some allowance) := by
            unfold legacyAllowance
            split <;> simp
          simpa only [VerificationResult.applyAccessKey, hset] using
            AccessKey.sameShape_setAllowance hold tx.nonce.nonce allowance

theorem verifyAndChargeGasKeyTxEphemeral_verifies (hindex : tx.nonce.nonceIndex = some index)
    (hcurrent : cache.gasKeyNonces tx.signerId tx.publicKey index = some current) :
    (verifyAndChargeGasKeyTxEphemeral as.config account key current tx index cost height).Verifies
      as.config (cache.gasKeyNonces tx.signerId tx.publicKey) account key tx cost key := by
  unfold verifyAndChargeGasKeyTxEphemeral
  cases hcharge : chargeGasKey key current tx index cost height with
  | error e => trivial
  | ok balance =>
    obtain ⟨_, hinfo, hlt, hnonce, -⟩ := chargeGasKey_eq_ok.mp hcharge
    have hverified : ∀ paid ≤ account.amount,
        Verified (cache.gasKeyNonces tx.signerId tx.publicKey) account key tx cost paid
          ⟨cost.gasBurnt, cost.gasRemaining, cost.receiptGasPrice, cost.burntAmount,
            account.amount - paid, .gasKey balance index tx.nonce.nonce⟩ key := fun paid hle =>
      ⟨rfl, rfl, hle, rfl, .gasKey _ hindex hinfo hlt hcurrent (verifyNonce_eq_ok hnonce),
        AccessKey.sameShape_setGasKeyBalance _ _, rfl⟩
    cases hsub : checkedSub account.amount cost.depositCost with
    | none => exact hverified 0 (Nat.zero_le _)
    | some amount =>
      obtain ⟨hle, rfl⟩ := checkedSub_eq_some.mp hsub
      dsimp only
      split
      · rename_i hstake
        simp only [TxVerdict.Verifies, chargedAmount, hindex]
        exact ⟨hverified _ hle, hstake⟩
      · exact hverified 0 (Nat.zero_le _)
      · trivial

theorem transactionVerdict_verifies :
    (transactionVerdict as cache account key tx cost).1.Verifies as.config
      (cache.gasKeyNonces tx.signerId tx.publicKey) account key tx cost
      (transactionVerdict as cache account key tx cost).2 := by
  unfold transactionVerdict
  split
  · rename_i index hindex
    split
    · trivial
    · next hcurrent => exact verifyAndChargeGasKeyTxEphemeral_verifies hindex hcurrent
  · next hindex => exact verifyAndChargeTxEphemeral_verifies hindex

theorem transactionVerdict_success
    (h : transactionVerdict as cache account key tx cost = (.success result, key')) :
    Verified (cache.gasKeyNonces tx.signerId tx.publicKey) account key tx cost
        (chargedAmount tx cost) result key' ∧
      checkStorageStake account result.newAccountAmount as.config = .ok () := by
  have hverifies := @transactionVerdict_verifies as cache account key tx cost
  rwa [h] at hverifies

theorem transactionVerdict_depositFailed
    (h : transactionVerdict as cache account key tx cost = (.depositFailed result error, key')) :
    Verified (cache.gasKeyNonces tx.signerId tx.publicKey) account key tx cost 0 result key' := by
  have hverifies := @transactionVerdict_verifies as cache account key tx cost
  rwa [h] at hverifies

end Verdicts

/-! ## The guard and the charge -/

section GuardAndCharge

variable {E : Externals} {as : ApplyState} {t : Trie E} {tx : Transaction} {account : Account}
  {result : VerificationResult}

theorem guardTransaction_of_record {record : PatoshiRecord}
    (hrecord : getPatoshiRecord t tx.signerId = .ok (some record))
    (hsum : result.newAccountAmount + account.locked < 2 ^ 128) :
    guardTransaction as t tx account result =
      .ok (patoshiGuard as tx record (result.newAccountAmount + account.locked)) := by
  have hadd : checkedAdd 128 result.newAccountAmount account.locked =
      some (result.newAccountAmount + account.locked) := checkedAdd_eq_some.mpr ⟨hsum, rfl⟩
  simp [guardTransaction, hrecord, Except.mapError, hadd, okOr]

theorem guardTransaction_eq_ok {scheduled : Option PatoshiRecord}
    (h : guardTransaction as t tx account result = .ok (.ok scheduled)) :
    (getPatoshiRecord t tx.signerId = .ok none ∧ scheduled = none) ∨
    ∃ record, getPatoshiRecord t tx.signerId = .ok (some record) ∧
      validateLockedPatoshiTransaction tx.signerId tx.receiverId tx.actions
        (result.newAccountAmount + account.locked) as.epochHeight as.protocolVersion record =
          .ok () ∧
      scheduled = maybeSchedulePatoshiUnlock record tx.receiverId tx.actions as.epochHeight := by
  obtain ⟨found, hfound, h⟩ := bind_eq_ok.mp h
  rw [mapError_eq_ok] at hfound
  cases found with
  | none =>
    cases h
    exact .inl ⟨hfound, rfl⟩
  | some record =>
    obtain ⟨_, htotal, h⟩ := bind_eq_ok.mp h
    rw [okOr_eq_ok, checkedAdd_eq_some] at htotal
    obtain ⟨-, rfl⟩ := htotal
    obtain ⟨⟨⟩, hvalid, h⟩ := bind_eq_ok.mp (Except.ok.inj h)
    cases h
    exact .inr ⟨record, hfound, hvalid, rfl⟩

def Entry.charge (e : Entry) (publicKey : PublicKey) (account : Account) (key : AccessKey)
    (result : VerificationResult) : Entry :=
  let e := e.setAccount (some (result.applyAccount account))
  let e := match result.gasKeyNonceUpdate with
    | some (index, nonce) => e.setGasKeyNonce publicKey index (some nonce)
    | none => e
  e.setAccessKey publicKey (result.applyAccessKey key)

@[simp] theorem Entry.charge_contractData (e : Entry) (publicKey : PublicKey) (account : Account)
    (key : AccessKey) (result : VerificationResult) :
    (e.charge publicKey account key result).contractData = e.contractData := by
  unfold Entry.charge
  cases result.gasKeyNonceUpdate <;> rfl

@[simp] theorem Entry.charge_account (e : Entry) (publicKey : PublicKey) (account : Account)
    (key : AccessKey) (result : VerificationResult) :
    (e.charge publicKey account key result).account = some (result.applyAccount account) := by
  unfold Entry.charge
  cases result.gasKeyNonceUpdate <;> rfl

section Fields

variable (p : ProcessingState E) (receipt : Receipt) (a : AccountId)
  (scheduled : Option PatoshiRecord)

@[simp] theorem emitReceipt_trie : (emitReceipt p receipt).trie = p.trie := by
  unfold emitReceipt; split <;> rfl
@[simp] theorem emitReceipt_committed : (emitReceipt p receipt).committed = p.committed := by
  unfold emitReceipt; split <;> rfl
@[simp] theorem emitReceipt_cache : (emitReceipt p receipt).cache = p.cache := by
  unfold emitReceipt; split <;> rfl
@[simp] theorem emitReceipt_log : (emitReceipt p receipt).log = p.log := by
  unfold emitReceipt; split <;> rfl
@[simp] theorem emitReceipt_txBurntAmount :
    (emitReceipt p receipt).txBurntAmount = p.txBurntAmount := by
  unfold emitReceipt; split <;> rfl
@[simp] theorem emitReceipt_totalGas : (emitReceipt p receipt).totalGas = p.totalGas := by
  unfold emitReceipt; split <;> rfl
@[simp] theorem scheduleUnlock_cache : (scheduleUnlock p a scheduled).cache = p.cache := by
  cases scheduled <;> rfl
@[simp] theorem scheduleUnlock_log : (scheduleUnlock p a scheduled).log = p.log := by
  cases scheduled <;> rfl
@[simp] theorem scheduleUnlock_txBurntAmount :
    (scheduleUnlock p a scheduled).txBurntAmount = p.txBurntAmount := by
  cases scheduled <;> rfl
@[simp] theorem scheduleUnlock_totalGas : (scheduleUnlock p a scheduled).totalGas = p.totalGas := by
  cases scheduled <;> rfl

end Fields

theorem applyCharge_trie (p : ProcessingState E) (tx : Transaction) (account : Account)
    (key : AccessKey) (result : VerificationResult) :
    (applyCharge p tx account key result).trie = p.trie.setEntry tx.signerId
        ((p.trie.entries tx.signerId).charge tx.publicKey account key result) := by
  unfold applyCharge Entry.charge
  cases result.gasKeyNonceUpdate with
  | none => simp [Trie.setAccount, Trie.setAccessKey]
  | some update => simp [Trie.setAccount, Trie.setAccessKey, Trie.setGasKeyNonce]

end GuardAndCharge

/-! ## The body of the loop -/

section Body

variable {E : Externals} {as : ApplyState} {p p' q : ProcessingState E} {tx : SignedTransaction}
  {account : Account} {cost : TransactionCost} {key : AccessKey}

/-- The transaction is valid and its signer has an access key: verification can start. -/
structure Loaded (as : ApplyState) (p : ProcessingState E) (tx : SignedTransaction)
    (account : Account) (cost : TransactionCost) (key : AccessKey) (q : ProcessingState E) :
    Prop where
  valid : validateTransaction E as.config tx as.protocolVersion = .ok ()
  cost_eq : txCost E.toCrypto as.config tx.transaction as.gasPrice = .ok cost
  account_eq : p.cache.accounts tx.transaction.signerId = some account
  resolve_eq : resolveAccessKey as p tx = (.ok key, q)

def Loaded.verdict (_ : Loaded as p tx account cost key q) : TxVerdict × AccessKey :=
  transactionVerdict as q.cache account key tx.transaction cost

theorem Loaded.processTransaction_eq (h : Loaded as p tx account cost key q) :
    processTransaction as p (tx, true) =
      applyVerdict as q tx account cost h.verdict.1 h.verdict.2 := by
  have hvalid : validationError E as tx true = none := by
    simp [validationError, h.valid]
  simp only [processTransaction, hvalid, h.cost_eq, h.account_eq, chargeTransaction,
    loadAccessKey_recoverAccessKey, h.resolve_eq]
  rfl

def Loaded.Rejects (h : Loaded as p tx account cost key q) (e : InvalidTxError) : Prop :=
  h.verdict.1 = .failed e ∨ ∃ result, h.verdict.1 = .success result ∧
    guardTransaction as q.trie tx.transaction account result = .ok (.error e)

theorem Loaded.Rejects.processTransaction_eq {h : Loaded as p tx account cost key q}
    {e : InvalidTxError} (hrejects : h.Rejects e) :
    processTransaction as p (tx, true) = .ok (q.fail tx e) := by
  rw [h.processTransaction_eq]
  rcases hrejects with hfailed | ⟨result, hsuccess, hguard⟩
  · rw [hfailed]
    rfl
  · rw [hsuccess]
    simp only [applyVerdict, hguard, ok_bind]

/-- The registration of a key other than the one that the transaction names. -/
structure ForeignKey (E : Externals) (as : ApplyState) (p : ProcessingState E)
    (tx : SignedTransaction) (recovered : PublicKey) : Prop where
  valid : validateTransaction E as.config tx as.protocolVersion = .ok ()
  cost_isOk : ∃ cost, txCost E.toCrypto as.config tx.transaction as.gasPrice = .ok cost
  account_isSome : ∃ account, p.cache.accounts tx.transaction.signerId = some account
  cache_none : p.cache.accessKeys tx.transaction.signerId tx.transaction.publicKey = none
  recovered_eq : recoveredKey E tx = some recovered
  ne_publicKey : recovered ≠ tx.transaction.publicKey

theorem ForeignKey.processTransaction_eq {recovered : PublicKey}
    (h : ForeignKey E as p tx recovered) :
    processTransaction as p (tx, true) = .ok (.fail { p with
      trie := autoRegisterAccessKeyIfNeeded p.trie tx.transaction.signerId recovered } tx
        .invalidSignature) := by
  have hvalid : validationError E as tx true = none := by
    simp [validationError, h.valid]
  have hbtc := (recoveredKey_eq_some h.recovered_eq).1
  obtain ⟨_, hcost⟩ := h.cost_isOk
  obtain ⟨_, haccount⟩ := h.account_isSome
  have hresolve : resolveAccessKey as p tx = (.error .invalidSignature, { p with
      trie := autoRegisterAccessKeyIfNeeded p.trie tx.transaction.signerId recovered }) := by
    simp [resolveAccessKey, h.cache_none, hbtc, h.recovered_eq, h.ne_publicKey]
  simp only [processTransaction, hvalid, hcost, haccount, chargeTransaction,
    loadAccessKey_recoverAccessKey, hresolve]

theorem resolveAccessKey_eq_error {e : InvalidTxError}
    (h : resolveAccessKey as p tx = (.error e, q)) :
    q = p ∨ ∃ recovered,
      p.cache.accessKeys tx.transaction.signerId tx.transaction.publicKey = none ∧
      recoveredKey E tx = some recovered ∧ recovered ≠ tx.transaction.publicKey ∧
      e = .invalidSignature ∧
      q = { p with
        trie := autoRegisterAccessKeyIfNeeded p.trie tx.transaction.signerId recovered } := by
  unfold resolveAccessKey at h
  dsimp only at h
  split at h
  · cases h
  · rename_i hcache
    split at h
    · split at h
      · cases h
        exact .inl rfl
      · rename_i recovered hrec
        split at h
        · cases h
        · rename_i hpk
          cases h
          exact .inr ⟨recovered, hcache, hrec, hpk, rfl, rfl⟩
    · cases h
      exact .inl rfl

/-- The loop body rejects the transaction without a trace in the state, or registers a foreign
key and rejects it, or goes on to verify it. -/
theorem processTransaction_cases (as : ApplyState) (p : ProcessingState E)
    (item : SignedTransaction × Bool) :
    (∃ e, processTransaction as p item = .ok (p.fail item.1 e)) ∨
    (∃ recovered, item.2 = true ∧ ForeignKey E as p item.1 recovered ∧
      processTransaction as p item = .ok (.fail { p with
        trie := autoRegisterAccessKeyIfNeeded p.trie item.1.transaction.signerId recovered }
          item.1 .invalidSignature)) ∨
    (∃ account cost key q, item.2 = true ∧ Loaded as p item.1 account cost key q) := by
  obtain ⟨tx, nonExpired⟩ := item
  unfold processTransaction validationError
  cases nonExpired with
  | false => exact .inl ⟨_, rfl⟩
  | true =>
    cases hvalid : validateTransaction E as.config tx as.protocolVersion with
    | error e => exact .inl ⟨e, by simp [hvalid]⟩
    | ok u =>
      cases hcost : txCost E.toCrypto as.config tx.transaction as.gasPrice with
      | error e => exact .inl ⟨_, by simp [hvalid, hcost]; rfl⟩
      | ok cost =>
        cases haccount : p.cache.accounts tx.transaction.signerId with
        | none => exact .inl ⟨_, by simp [hvalid, hcost, haccount]; rfl⟩
        | some account =>
          simp only [hvalid, hcost, haccount, Bool.not_true, Bool.false_eq_true, if_false,
            chargeTransaction, loadAccessKey_recoverAccessKey]
          rcases hresolve : resolveAccessKey as p tx with ⟨e | key, q⟩
          · rcases resolveAccessKey_eq_error hresolve with
              rfl | ⟨recovered, hcache, hrec, hne, rfl, rfl⟩
            · exact .inl ⟨e, rfl⟩
            · exact .inr (.inl ⟨recovered, trivial,
                ⟨hvalid, ⟨cost, hcost⟩, ⟨account, haccount⟩, hcache, hrec, hne⟩, rfl⟩)
          · exact .inr (.inr ⟨account, cost, key, q, trivial, hvalid, hcost, haccount, hresolve⟩)

theorem resolveAccessKey_eq_ok (h : resolveAccessKey as p tx = (.ok key, q)) :
    (p.cache.accessKeys tx.transaction.signerId tx.transaction.publicKey = some key ∧ q = p) ∨
    (p.cache.accessKeys tx.transaction.signerId tx.transaction.publicKey = none ∧
      recoveredKey E tx = some tx.transaction.publicKey ∧
      key = firstUseKey as
        (p.trie.getAccessKey tx.transaction.signerId tx.transaction.publicKey) tx ∧
      q = { p with
        trie := p.trie.setAccessKey tx.transaction.signerId tx.transaction.publicKey key
        cache := p.cache.setAccessKey tx.transaction.signerId tx.transaction.publicKey
          (some key) }) := by
  unfold resolveAccessKey at h
  dsimp only at h
  split at h
  · rename_i hcache
    cases h
    exact .inl ⟨hcache, rfl⟩
  · rename_i hcache
    split at h
    · split at h
      · cases h
      · rename_i recovered hrec
        split at h
        · rename_i hpk
          cases h
          exact .inr ⟨hcache, hpk ▸ hrec, rfl, rfl⟩
        · cases h
    · cases h

/-- What the end of the loop body writes when the statistics do not overflow. -/
def charged (p : ProcessingState E) (tx : SignedTransaction) (account : Account)
    (key : AccessKey) (result : VerificationResult) (gasBurnt : Gas) (tokensBurnt : Balance)
    (fate : TransactionEnd) : ProcessingState E :=
  (applyCharge { p with
      txBurntAmount := p.txBurntAmount + tokensBurnt, totalGas := p.totalGas + gasBurnt }
    tx.transaction account key result).finishWith tx fate

theorem settle_eq (p : ProcessingState E) (tx : SignedTransaction) (account : Account)
    (key : AccessKey) (result : VerificationResult) (gasBurnt : Gas) (tokensBurnt : Balance)
    (fate : TransactionEnd) :
    settle p tx account key result gasBurnt tokensBurnt fate =
      if p.txBurntAmount + tokensBurnt < 2 ^ 128 then
        if p.totalGas + gasBurnt < 2 ^ 64 then
          .ok (charged p tx account key result gasBurnt tokensBurnt fate)
        else .error (.unexpectedIntegerOverflow "TotalResourceGuard::add")
      else .ok (p.finishWith tx .dropped) := by
  unfold settle safeAddBalance checkedAdd
  by_cases hburnt : p.txBurntAmount + tokensBurnt < 2 ^ 128
  · by_cases hgas : p.totalGas + gasBurnt < 2 ^ 64
    · simp only [hburnt, hgas, if_true, okOr, charged, ok_bind]
    · simp only [hburnt, hgas, if_true, if_false, okOr, error_bind]
  · simp only [hburnt, if_false, okOr]

inductive TxStep (as : ApplyState) (p : ProcessingState E) (item : SignedTransaction × Bool) :
    ProcessingState E → Prop
  | rejected (e : InvalidTxError) : TxStep as p item (p.fail item.1 e)
  | foreignKey {recovered} (hlive : item.2 = true) (h : ForeignKey E as p item.1 recovered) :
      TxStep as p item (.fail { p with
        trie := autoRegisterAccessKeyIfNeeded p.trie item.1.transaction.signerId recovered }
          item.1 .invalidSignature)
  | failed {account : Account} {cost : TransactionCost} {key : AccessKey}
      {q : ProcessingState E} (hlive : item.2 = true)
      (h : Loaded as p item.1 account cost key q) (e : InvalidTxError) (hrejects : h.Rejects e) :
      TxStep as p item (q.fail item.1 e)
  | depositFailed {account cost key key' q p' result error totalGas} (hlive : item.2 = true)
      (h : Loaded as p item.1 account cost key q)
      (hverdict : h.verdict = (.depositFailed result error, key'))
      (hsettle : settle q item.1 account key' result totalGas cost.gasCost
        (.depositFailed error totalGas cost.gasCost) = .ok p') :
      TxStep as p item p'
  | accepted {account cost key key' q p' result scheduled} (hlive : item.2 = true)
      (h : Loaded as p item.1 account cost key q)
      (hverdict : h.verdict = (.success result, key'))
      (hguard : guardTransaction as q.trie item.1.transaction account result = .ok (.ok scheduled))
      (haccept : acceptTransaction as (scheduleUnlock q item.1.transaction.signerId scheduled)
        item.1 account key' result = .ok p') :
      TxStep as p item p'

theorem processTransaction_txStep {item : SignedTransaction × Bool}
    (h : processTransaction as p item = .ok p') : TxStep as p item p' := by
  rcases processTransaction_cases as p item with
    ⟨e, he⟩ | ⟨recovered, hlive, hforeign, he⟩ | ⟨account, cost, key, q, hlive, hl⟩
  · obtain rfl : p.fail item.1 e = p' := by simpa [he] using h
    exact .rejected e
  · rw [he] at h
    cases h
    exact .foreignKey hlive hforeign
  · obtain ⟨_, nonExpired⟩ := item
    obtain rfl : nonExpired = true := hlive
    rw [hl.processTransaction_eq] at h
    rcases hverdict : hl.verdict with ⟨result | ⟨result, error⟩ | e, key'⟩
    · rw [hverdict] at h
      obtain ⟨answer, hguard, haccept⟩ := bind_eq_ok.mp h
      cases answer with
      | error e =>
        cases haccept
        exact .failed rfl hl e (.inr ⟨result, by rw [hverdict], hguard⟩)
      | ok scheduled => exact .accepted rfl hl hverdict hguard haccept
    · rw [hverdict] at h
      obtain ⟨_, -, hsettle⟩ := bind_eq_ok.mp h
      exact .depositFailed rfl hl hverdict hsettle
    · rw [hverdict] at h
      cases h
      exact .failed rfl hl e (.inl (by rw [hverdict]))

end Body

/-! ## The cache agrees with the trie -/

section Cache

variable {E : Externals}

/-- What the cache holds is what the trie holds; only keys that were registered under another
name can be missing from it. -/
structure TxCache.Coherent (c : TxCache) (t : Trie E) : Prop where
  accounts : ∀ a, c.accounts a = t.getAccount a
  accessKeys : ∀ a pk key, c.accessKeys a pk = some key → t.getAccessKey a pk = some key
  gasKeyNonces : ∀ a pk i, c.gasKeyNonces a pk i = t.getGasKeyNonce a pk i

namespace TxCache.Coherent

variable {c : TxCache} {t : Trie E} (h : c.Coherent t)
include h

theorem register (a : AccountId) (pk : PublicKey) :
    c.Coherent (autoRegisterAccessKeyIfNeeded t a pk) := by
  unfold autoRegisterAccessKeyIfNeeded
  cases hstored : t.getAccessKey a pk with
  | some key => exact h
  | none =>
    refine ⟨fun b => ?_, fun b pk' key hkey => ?_, fun b pk' i => ?_⟩
    · simp [h.accounts]
    · have hb := h.accessKeys b pk' key hkey
      rw [Trie.getAccessKey_setAccessKey]
      split
      · rename_i hab
        rw [hab.1, hab.2, hstored] at hb
        cases hb
      · exact hb
    · simp [h.gasKeyNonces]

theorem setAccessKey (a : AccountId) (pk : PublicKey) (key : AccessKey) :
    (c.setAccessKey a pk (some key)).Coherent (t.setAccessKey a pk key) := by
  refine ⟨fun b => ?_, fun b pk' key' hkey => ?_, fun b pk' i => ?_⟩
  · rw [Trie.getAccount_setAccessKey]
    exact h.accounts b
  · rw [Trie.getAccessKey_setAccessKey]
    simp only [TxCache.setAccessKey] at hkey
    split
    · next hab => rwa [if_pos hab] at hkey
    · rename_i hab
      rw [if_neg hab] at hkey
      exact h.accessKeys b pk' key' hkey
  · rw [Trie.getGasKeyNonce_setAccessKey]
    exact h.gasKeyNonces b pk' i

theorem setAccount (a : AccountId) (account : Account) :
    (c.setAccount a account).Coherent (t.setAccount a account) := by
  refine ⟨fun b => ?_, fun b pk key hkey => ?_, fun b pk i => ?_⟩
  · rw [Trie.getAccount_setAccount]
    simp [TxCache.setAccount, h.accounts]
  · simpa using h.accessKeys b pk key hkey
  · rw [Trie.getGasKeyNonce_setAccount]
    exact h.gasKeyNonces b pk i

theorem setGasKeyNonce (a : AccountId) (pk : PublicKey) (i : NonceIndex) (n : Nonce) :
    (c.setGasKeyNonce a pk i n).Coherent (t.setGasKeyNonce a pk i n) := by
  refine ⟨fun b => ?_, fun b pk' key hkey => ?_, fun b pk' j => ?_⟩
  · rw [Trie.getAccount_setGasKeyNonce]
    exact h.accounts b
  · simpa using h.accessKeys b pk' key hkey
  · rw [Trie.getGasKeyNonce_setGasKeyNonce]
    simp [TxCache.setGasKeyNonce, h.gasKeyNonces]

theorem setPatoshiRecord (a : AccountId) (record : PatoshiRecord) :
    c.Coherent (setPatoshiRecord t a record) := by
  refine ⟨fun b => ?_, fun b pk key hkey => ?_, fun b pk i => ?_⟩
  · exact (h.accounts b).trans (Trie.getAccount_setContractData t a b _ _).symm
  · exact (Trie.getAccessKey_setContractData t a b _ _ _).trans (h.accessKeys b pk key hkey)
  · exact (h.gasKeyNonces b pk i).trans (Trie.getGasKeyNonce_setContractData t a b _ _ _ _).symm

end TxCache.Coherent

/-- The relation is kept by writes that go to the cache and the trie, and by those of a record. -/
structure PairedWrites (R : TxCache → Trie E → Prop) : Prop where
  account : ∀ {c t}, R c t → ∀ a account, R (c.setAccount a account) (t.setAccount a account)
  accessKey : ∀ {c t}, R c t → ∀ a pk key,
    R (c.setAccessKey a pk (some key)) (t.setAccessKey a pk key)
  gasKeyNonce : ∀ {c t}, R c t → ∀ a pk i n,
    R (c.setGasKeyNonce a pk i n) (t.setGasKeyNonce a pk i n)
  record : ∀ {c t}, R c t → ∀ a record, R c (setPatoshiRecord t a record)

theorem pairedWrites_coherent : PairedWrites (E := E) TxCache.Coherent :=
  ⟨fun h => h.setAccount, fun h => h.setAccessKey, fun h => h.setGasKeyNonce,
    fun h => h.setPatoshiRecord⟩

variable {as : ApplyState} {p p' q : ProcessingState E} {tx : SignedTransaction} {key : AccessKey}

namespace PairedWrites

variable {R : TxCache → Trie E → Prop} (hR : PairedWrites R) (h : R p.cache p.trie)
include hR h

theorem resolve (hresolve : resolveAccessKey as p tx = (.ok key, q)) : R q.cache q.trie := by
  rcases resolveAccessKey_eq_ok hresolve with ⟨-, rfl⟩ | ⟨-, -, -, rfl⟩
  · exact h
  · exact hR.accessKey h _ _ _

theorem schedule (a : AccountId) (scheduled : Option PatoshiRecord) :
    R p.cache (scheduleUnlock p a scheduled).trie := by
  cases scheduled with
  | none => exact h
  | some record => exact hR.record h a record

theorem charge (account : Account) (key : AccessKey) (result : VerificationResult) (gas : Gas)
    (tokens : Balance) (fate : TransactionEnd) :
    R (charged p tx account key result gas tokens fate).cache
      (charged p tx account key result gas tokens fate).trie := by
  unfold charged applyCharge
  cases result.gasKeyNonceUpdate with
  | none => exact hR.accessKey (hR.account h _ _) _ _ _
  | some update => exact hR.accessKey (hR.gasKeyNonce (hR.account h _ _) _ _ _ _) _ _ _

theorem settle {account : Account} {result : VerificationResult} {gas : Gas} {tokens : Balance}
    {fate : TransactionEnd} (hsettle : settle p tx account key result gas tokens fate = .ok p') :
    R p'.cache p'.trie := by
  rw [settle_eq] at hsettle
  split_ifs at hsettle
  · cases hsettle
    exact hR.charge h _ _ _ _ _ _
  · cases hsettle
    exact h

end PairedWrites

theorem TxStep.coherent {item : SignedTransaction × Bool} (hstep : TxStep as p item p')
    (h : p.cache.Coherent p.trie) : p'.cache.Coherent p'.trie := by
  cases hstep with
  | rejected e => exact h
  | foreignKey => exact h.register _ _
  | failed hlive hl e => exact (pairedWrites_coherent.resolve h hl.resolve_eq :)
  | depositFailed hlive hl hverdict hsettle =>
    exact pairedWrites_coherent.settle (pairedWrites_coherent.resolve h hl.resolve_eq) hsettle
  | accepted hlive hl hverdict hguard haccept =>
    have hq := pairedWrites_coherent.resolve h hl.resolve_eq
    refine pairedWrites_coherent.settle ?_ haccept
    simpa using pairedWrites_coherent.schedule hq _ _

end Cache

def sampleTransaction (signerId receiverId : AccountId) (nonce : Nonce) (actions : List Action) :
    SignedTransaction where
  transaction :=
    { version := .v0
      signerId, receiverId, actions
      publicKey := .secp256k1 sampleKey
      nonce := ⟨nonce, none⟩
      blockHash := []
      index_none := fun _ => rfl }
  signature := .secp256k1 sampleKey.bytes

end BitInfinity
