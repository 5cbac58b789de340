import BitInfinity.Runtime.Validation

/-!
# Errors of the runtime
-/

namespace BitInfinity

/-- The inconsistencies that surface as `StorageInconsistentState`, one constructor for each
message. -/
inductive StorageError
  | failedToDeserialize
  | invalidAccountInPatoshiIndex (accountId : String) (error : ParseAccountError)
  | patoshiAccountMissing (accountId : AccountId)
  | foundationAccountMissing
  | stakingInvariantBroken (locked maxOfStakes : Balance)
  | stakedAccountMissing (accountId : AccountId) (maxOfStakes : Balance)
  | protocolTreasuryAccountMissing (accountId : AccountId)
  | protocolTreasuryRewardMissing (accountId : AccountId)
  | storageUsageOverflow (accountId : AccountId)
  | accountBalanceOverflow (accountId : AccountId)
  | billableStorageOverflow (storageUsage : StorageUsage)
  | amountAndLockedOverflow (amount locked : Balance)
  | receivedDataMissing
  | pendingDataCountMissing
  | pendingDataCountZero
  | pendingReceiptMissing
  deriving DecidableEq, Repr

inductive InvalidAccessKeyError
  | accessKeyNotFound (accountId : AccountId) (publicKey : PublicKey)
  | receiverMismatch (txReceiver : AccountId) (akReceiver : String)
  | methodNameMismatch (methodName : String)
  | requiresFullAccess
  | notEnoughAllowance (accountId : AccountId) (publicKey : PublicKey) (allowance cost : Balance)
  | depositWithFunctionCall
  deriving DecidableEq, Repr

inductive DepositCostFailureReason
  | notEnoughBalance
  | lackBalanceForState
  deriving DecidableEq, Repr

inductive InvalidTxError
  | invalidAccessKeyError (error : InvalidAccessKeyError)
  | invalidSignerId (signerId : String)
  | signerDoesNotExist (signerId : AccountId)
  | invalidNonce (txNonce akNonce : Nonce)
  | nonceTooLarge (txNonce upperBound : Nonce)
  | invalidSignature
  | notEnoughBalance (signerId : AccountId) (balance cost : Balance)
  | lackBalanceForState (signerId : AccountId) (amount : Balance)
  | costOverflow
  | expired
  | actionsValidation (error : ActionsValidationError)
  | transactionSizeExceeded (size limit : Nat)
  | invalidTransactionVersion
  | storageError (error : StorageError)
  | invalidNonceIndex (txNonceIndex : Option NonceIndex) (numNonces : NonceIndex)
  | notEnoughGasKeyBalance (signerId : AccountId) (balance cost : Balance)
  | notEnoughBalanceForDeposit (signerId : AccountId) (balance cost : Balance)
      (reason : DepositCostFailureReason)
  deriving DecidableEq, Repr

inductive RuntimeError
  | unexpectedIntegerOverflow (place : String)
  | storageError (error : StorageError)
  | receiptValidationError (error : ReceiptValidationError)
  /-- A failed `unwrap` or `expect`. -/
  | panicked (place : String)
  deriving DecidableEq, Repr

end BitInfinity
