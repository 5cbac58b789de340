import BitInfinity.Runtime.BitcoinTx

/-!
# Verifying and charging transactions

`verifyAndChargeTxEphemeral` and its gas key variant decide whether a transaction can pay for
itself and compute the charge; they change no state.  `maybeAutoRegisterBitcoinAccessKey`
writes the key of a Bitcoin account to the trie and reports afterwards whether the
transaction may use it.
-/

namespace BitInfinity

open Foundation

/-! ## Storage stake -/

inductive StorageStakingError
  | lackBalanceForStorageStaking (amount : Balance)
  | storageError (error : StorageError)
  deriving DecidableEq, Repr

def zeroBalanceAccountStorageLimit : StorageUsage := 770

def isZeroBalanceAccount (account : Account) : Bool :=
  account.storageUsage ≤ zeroBalanceAccountStorageLimit

def checkStorageStake (account : Account) (accountBalance : Balance) (config : RuntimeConfig) :
    Except StorageStakingError Unit := do
  let required ← okOr
    (checkedMul 128 config.storageUsageConfig.storageAmountPerByte account.storageUsage)
    (.storageError (.billableStorageOverflow account.storageUsage))
  let available ← okOr (checkedAdd 128 accountBalance account.locked)
    (.storageError (.amountAndLockedOverflow account.amount account.locked))
  ensure (required ≤ available || isZeroBalanceAccount account)
    (.lackBalanceForStorageStaking (required - available))

/-! ## Stateless validation of a transaction -/

def checkValidForConfig (E : Externals) (config : RuntimeConfig) (tx : SignedTransaction)
    (version : ProtocolVersion) : Except InvalidTxError Unit := do
  ensure (ProtocolFeature.gasKeys.enabled version || tx.transaction.version == .v0)
    .invalidTransactionVersion
  ensure (E.transactionSize tx ≤ config.limitConfig.maxTransactionSize)
    (.transactionSizeExceeded (E.transactionSize tx) config.limitConfig.maxTransactionSize)

def validateTransaction (E : Externals) (config : RuntimeConfig) (tx : SignedTransaction)
    (version : ProtocolVersion) : Except InvalidTxError Unit := do
  (validateActions E.toCrypto config.limitConfig version tx.transaction.actions
    tx.transaction.receiverId).mapError .actionsValidation
  checkValidForConfig E config tx version
  ensure (E.verify tx.signature (E.transactionHash tx.transaction) tx.transaction.publicKey)
    .invalidSignature

/-! ## Registration of Bitcoin keys -/

def initialNonceValue (blockHeight : BlockHeight) : Nonce :=
  (blockHeight - 1) * AccessKey.accessKeyNonceRangeMultiplier

/-- The lower of the nonce range of the transaction and that of the block before. -/
def firstUseNonceFloor (blockHeight : BlockHeight) (txNonce : Nonce) : Nonce :=
  let registrationHeight := max (blockHeight - 1) 1
  let heightFloor := initialNonceValue registrationHeight
  let txNonceFloor := txNonce / AccessKey.accessKeyNonceRangeMultiplier *
    AccessKey.accessKeyNonceRangeMultiplier
  min heightFloor txNonceFloor

def raiseNonceFloor {E : Externals} (t : Trie E) (signerId : AccountId) (publicKey : PublicKey)
    (minNonce : Nonce) : Trie E :=
  match t.getAccessKey signerId publicKey with
  | some key =>
    if key.nonce < minNonce then t.setAccessKey signerId publicKey (key.setNonce minNonce)
    else t
  | none => t

/-- The trie is returned in every case: a key that was recovered and registered stays even
when it is not the key that the transaction names. -/
def maybeAutoRegisterBitcoinAccessKey {E : Externals} (t : Trie E) (signerId : AccountId)
    (txPublicKey : PublicKey) (txSignature : Signature) (txHash : Bytes)
    (blockHeight : BlockHeight) (txNonce : Nonce) :
    Except InvalidTxError Bool × Trie E :=
  if !isBitcoinAddress E.toCrypto signerId then
    (.ok false, t)
  else
    match verifyAndRegisterBitcoinTransaction txSignature txHash signerId t with
    | .error _ => (.error .invalidSignature, t)
    | .ok ((valid, recovered), t') =>
      if !valid then
        (.error .invalidSignature, t')
      else if recovered ≠ some txPublicKey then
        (.error .invalidSignature, t')
      else
        (.ok true, raiseNonceFloor t' signerId txPublicKey (firstUseNonceFloor blockHeight txNonce))

/-! ## Charging -/

inductive AccessKeyUpdate
  | regular (nonce : Nonce) (newAllowance : Option Balance)
  | gasKey (newBalance : Balance) (nonceIndex : NonceIndex) (nonce : Nonce)
  deriving DecidableEq, Repr

structure VerificationResult where
  gasBurnt : Gas
  gasRemaining : Gas
  receiptGasPrice : Balance
  burntAmount : Balance
  newAccountAmount : Balance
  accessKeyUpdate : AccessKeyUpdate
  deriving DecidableEq, Repr

inductive TxVerdict
  | success (result : VerificationResult)
  | depositFailed (result : VerificationResult) (error : InvalidTxError)
  | failed (error : InvalidTxError)
  deriving DecidableEq, Repr

namespace VerificationResult

def applyAccount (result : VerificationResult) (account : Account) : Account :=
  { account with amount := result.newAccountAmount }

def applyAccessKey (result : VerificationResult) (key : AccessKey) : AccessKey :=
  match result.accessKeyUpdate with
  | .regular nonce none => key.setNonce nonce
  | .regular nonce (some allowance) =>
    { nonce, permission := key.permission.setAllowance (some allowance) }
  | .gasKey newBalance _ _ => key.setGasKeyBalance newBalance

def gasKeyNonceUpdate (result : VerificationResult) : Option (NonceIndex × Nonce) :=
  match result.accessKeyUpdate with
  | .regular _ _ => none
  | .gasKey _ index nonce => some (index, nonce)

end VerificationResult

def verifyFunctionCallPermission (permission : FunctionCallPermission) (tx : Transaction) :
    Except InvalidTxError Unit :=
  match tx.actions with
  | [.basic (.functionCall call)] => do
    ensure (call.deposit == 0) (.invalidAccessKeyError .depositWithFunctionCall)
    ensure (tx.receiverId == permission.receiverId)
      (.invalidAccessKeyError (.receiverMismatch tx.receiverId permission.receiverId))
    ensure (permission.methodNames.isEmpty || permission.methodNames.contains call.methodName)
      (.invalidAccessKeyError (.methodNameMismatch call.methodName))
  | _ => .error (.invalidAccessKeyError .requiresFullAccess)

def verifyKeyPermission (key : AccessKey) (tx : Transaction) : Except InvalidTxError Unit :=
  match key.permission.functionCallPermission with
  | some permission => verifyFunctionCallPermission permission tx
  | none => .ok ()

def verifyNonce (txNonce currentNonce : Nonce) (blockHeight : Option BlockHeight) :
    Except InvalidTxError Unit := do
  ensure (currentNonce < txNonce) (.invalidNonce txNonce currentNonce)
  match blockHeight with
  | some height =>
    let upperBound := saturatingMul 64 height AccessKey.accessKeyNonceRangeMultiplier
    ensure (txNonce < upperBound) (.nonceTooLarge txNonce upperBound)
  | none => .ok ()

def checkAndComputeNewAllowance (key : AccessKey) (accountId : AccountId)
    (publicKey : PublicKey) (totalCost : Balance) : Except InvalidTxError (Option Balance) :=
  match key.permission.functionCallPermission.bind FunctionCallPermission.allowance with
  | none => .ok none
  | some allowance => do
    let newAllowance ← okOr (checkedSub allowance totalCost)
      (.invalidAccessKeyError (.notEnoughAllowance accountId publicKey allowance totalCost))
    .ok (some newAllowance)

def storageStakeError (signerId : AccountId) : StorageStakingError → InvalidTxError
  | .lackBalanceForStorageStaking amount => .lackBalanceForState signerId amount
  | .storageError error => .storageError error

/-- Before the allowance fix the remaining allowance is reduced on the key even when a later
check rejects the transaction. -/
def legacyAllowance (version : ProtocolVersion) (key : AccessKey)
    (newAllowance : Option Balance) : AccessKey :=
  if ProtocolFeature.fixAccessKeyAllowanceCharging.enabled version then key
  else match newAllowance with
    | some allowance => { key with permission := key.permission.setAllowance (some allowance) }
    | none => key

/-- The checks up to the allowance, with the new amount and allowance. -/
def chargeRegular (account : Account) (key : AccessKey) (tx : Transaction)
    (cost : TransactionCost) (blockHeight : Option BlockHeight) :
    Except InvalidTxError (Balance × Option Balance) := do
  match key.gasKeyInfo with
  | some info => .error (.invalidNonceIndex none info.numNonces)
  | none => .ok ()
  verifyNonce tx.nonce.nonce key.nonce blockHeight
  let newAmount ← okOr (checkedSub account.amount cost.totalCost)
    (.notEnoughBalance tx.signerId account.amount cost.totalCost)
  let newAllowance ← checkAndComputeNewAllowance key tx.signerId tx.publicKey cost.totalCost
  .ok (newAmount, newAllowance)

def verifyAndChargeTxEphemeral (config : RuntimeConfig) (account : Account) (key : AccessKey)
    (tx : Transaction) (cost : TransactionCost) (blockHeight : Option BlockHeight)
    (version : ProtocolVersion) : TxVerdict × AccessKey :=
  match chargeRegular account key tx cost blockHeight with
  | .error e => (.failed e, key)
  | .ok (newAmount, newAllowance) =>
    let key := legacyAllowance version key newAllowance
    match (checkStorageStake account newAmount config).mapError (storageStakeError tx.signerId)
    with
    | .error e => (.failed e, key)
    | .ok () =>
      match verifyKeyPermission key tx with
      | .error e => (.failed e, key)
      | .ok () =>
        (.success
          { gasBurnt := cost.gasBurnt
            gasRemaining := cost.gasRemaining
            receiptGasPrice := cost.receiptGasPrice
            burntAmount := cost.burntAmount
            newAccountAmount := newAmount
            accessKeyUpdate := .regular tx.nonce.nonce newAllowance }, key)

/-- The checks of a gas key transaction that fail it without a charge; the new balance of the
gas key otherwise. -/
def chargeGasKey (key : AccessKey) (currentNonce : Nonce) (tx : Transaction)
    (nonceIndex : NonceIndex) (cost : TransactionCost) (blockHeight : Option BlockHeight) :
    Except InvalidTxError Balance := do
  let info ← okOr key.gasKeyInfo
    (.invalidAccessKeyError (.accessKeyNotFound tx.signerId tx.publicKey))
  ensure (nonceIndex < info.numNonces) (.invalidNonceIndex (some nonceIndex) info.numNonces)
  verifyNonce tx.nonce.nonce currentNonce blockHeight
  let newBalance ← okOr (checkedSub info.balance cost.gasCost)
    (.notEnoughGasKeyBalance tx.signerId info.balance cost.gasCost)
  verifyKeyPermission key tx
  .ok newBalance

def verifyAndChargeGasKeyTxEphemeral (config : RuntimeConfig) (account : Account)
    (key : AccessKey) (currentNonce : Nonce) (tx : Transaction) (nonceIndex : NonceIndex)
    (cost : TransactionCost) (blockHeight : Option BlockHeight) : TxVerdict :=
  match chargeGasKey key currentNonce tx nonceIndex cost blockHeight with
  | .error e => .failed e
  | .ok newBalance =>
    let result := fun newAccountAmount : Balance =>
      ({ gasBurnt := cost.gasBurnt
         gasRemaining := cost.gasRemaining
         receiptGasPrice := cost.receiptGasPrice
         burntAmount := cost.burntAmount
         newAccountAmount
         accessKeyUpdate := .gasKey newBalance nonceIndex tx.nonce.nonce } : VerificationResult)
    match checkedSub account.amount cost.depositCost with
    | none =>
      .depositFailed (result account.amount)
        (.notEnoughBalanceForDeposit tx.signerId account.amount cost.depositCost .notEnoughBalance)
    | some newAccountAmount =>
      match checkStorageStake account newAccountAmount config with
      | .ok () => .success (result newAccountAmount)
      | .error (.lackBalanceForStorageStaking amount) =>
        .depositFailed (result account.amount)
          (.notEnoughBalanceForDeposit tx.signerId newAccountAmount amount .lackBalanceForState)
      | .error (.storageError e) => .failed (.storageError e)

end BitInfinity
