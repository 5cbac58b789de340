import BitInfinity.Runtime.Verifier

/-!
# Adding and deleting access keys

Each action works on the trie entry of the receiver and on a copy of its account, which is
written back when the whole receipt has succeeded.
-/

namespace BitInfinity

open Foundation

/-! ## Results of actions -/

inductive ActionErrorKind
  | accountAlreadyExists (accountId : AccountId)
  | accountDoesNotExist (accountId : AccountId)
  | createAccountOnlyByRegistrar (accountId registrarAccountId predecessorId : AccountId)
  | createAccountNotAllowed (accountId predecessorId : AccountId)
  | actorNoPermission (accountId actorId : AccountId)
  | deleteKeyDoesNotExist (accountId : AccountId) (publicKey : PublicKey)
  | addKeyAlreadyExists (accountId : AccountId) (publicKey : PublicKey)
  | deleteAccountStaking (accountId : AccountId)
  | lackBalanceForState (accountId : AccountId) (amount : Balance)
  | triesToUnstake (accountId : AccountId)
  | triesToStake (accountId : AccountId) (stake locked balance : Balance)
  | insufficientStake (accountId : AccountId) (stake minimumStake : Balance)
  | functionCallError (error : String)
  | newReceiptValidationError (error : ReceiptValidationError)
  | onlyImplicitAccountCreationAllowed (accountId : AccountId)
  | deleteAccountWithLargeState (accountId : AccountId)
  | delegateActionInvalidSignature
  | delegateActionSenderDoesNotMatchTxReceiver (senderId receiverId : AccountId)
  | delegateActionExpired
  | delegateActionAccessKeyError (error : InvalidAccessKeyError)
  | delegateActionInvalidNonce (delegateNonce akNonce : Nonce)
  | delegateActionNonceTooLarge (delegateNonce upperBound : Nonce)
  | globalContractDoesNotExist (identifier : GlobalContractIdentifier)
  | gasKeyDoesNotExist (accountId : AccountId) (publicKey : PublicKey)
  | insufficientGasKeyBalance (accountId : AccountId) (publicKey : PublicKey)
      (balance required : Balance)
  | gasKeyBalanceTooHigh (accountId : AccountId) (publicKey : Option PublicKey) (balance : Balance)
  deriving DecidableEq, Repr

structure ActionError where
  index : Option Nat
  kind : ActionErrorKind
  deriving DecidableEq, Repr

inductive ReturnData
  | value (data : Bytes)
  | receiptIndex (index : Nat)
  | none
  deriving DecidableEq, Repr

structure ValidatorStake where
  accountId : AccountId
  publicKey : PublicKey
  stake : Balance
  deriving DecidableEq, Repr

structure ActionResult where
  gasBurnt : Gas
  gasBurntForFunctionCall : Gas
  gasUsed : Gas
  result : Except ActionError ReturnData
  newReceipts : List Receipt
  validatorProposals : List ValidatorStake
  tokensBurnt : Balance

namespace ActionResult

def default : ActionResult where
  gasBurnt := 0
  gasBurntForFunctionCall := 0
  gasUsed := 0
  result := .ok .none
  newReceipts := []
  validatorProposals := []
  tokensBurnt := 0

def reject (r : ActionResult) (kind : ActionErrorKind) : ActionResult :=
  { r with result := .error ⟨none, kind⟩ }

def isOk (r : ActionResult) : Bool :=
  match r.result with
  | .ok _ => true
  | .error _ => false

theorem isOk_iff {r : ActionResult} : r.isOk = true ↔ ∃ data, r.result = .ok data := by
  unfold isOk
  cases r.result <;> simp

@[simp] theorem isOk_reject (r : ActionResult) (kind : ActionErrorKind) :
    (r.reject kind).isOk = false := rfl

end ActionResult

structure ActionState where
  entry : Entry
  globals : Globals
  yieldStatus : CryptoHash → Option PromiseYieldStatus
  account : Option Account
  actorId : AccountId

/-! ## Storage cost of keys -/

def accessKeyStorageUsage (config : StorageUsageConfig) (publicKey : PublicKey)
    (key : AccessKey) : StorageUsage :=
  publicKey.len + key.borshLen + config.numExtraBytesRecord

def gasKeyStorageCost (config : StorageUsageConfig) (publicKey : PublicKey)
    (key : AccessKey) (numNonces : NonceIndex) : StorageUsage :=
  numNonces * (publicKey.len + 2 + 8 + config.numExtraBytesRecord) +
    accessKeyStorageUsage config publicKey key

def keyStorageCost (config : StorageUsageConfig) (publicKey : PublicKey) (key : AccessKey) :
    StorageUsage :=
  match key.gasKeyInfo with
  | some info => gasKeyStorageCost config publicKey key info.numNonces
  | none => accessKeyStorageUsage config publicKey key

/-! ## The actions -/

section Actions

variable (config : StorageUsageConfig) (accountId : AccountId)

def setGasKeyNonces (e : Entry) (publicKey : PublicKey) (count : Nat) (nonce : Option Nonce) :
    Entry :=
  (List.range count).foldl (fun e i => e.setGasKeyNonce publicKey i nonce) e

def deleteGasKey (e : Entry) (account : Account) (result : ActionResult)
    (publicKey : PublicKey) (key : AccessKey) (info : GasKeyInfo) :
    Except RuntimeError (ActionResult × Entry × Account) :=
  if GasKeyInfo.maxBalanceToBurn < info.balance then
    .ok (result.reject (.gasKeyBalanceTooHigh accountId (some publicKey) info.balance), e, account)
  else do
    let tokensBurnt ← okOr (checkedAdd 128 result.tokensBurnt info.balance)
      (.unexpectedIntegerOverflow "IntegerOverflowError")
    let e := (setGasKeyNonces e publicKey info.numNonces none).removeAccessKey publicKey
    .ok ({ result with tokensBurnt }, e, { account with
      storageUsage := account.storageUsage -
        gasKeyStorageCost config publicKey key info.numNonces })

def deleteRegularKey (e : Entry) (account : Account) (publicKey : PublicKey)
    (key : AccessKey) : Entry × Account :=
  (e.removeAccessKey publicKey, { account with
    storageUsage := account.storageUsage - accessKeyStorageUsage config publicKey key })

def actionDeleteKey (e : Entry) (account : Account) (result : ActionResult)
    (publicKey : PublicKey) : Except RuntimeError (ActionResult × Entry × Account) :=
  match e.getAccessKey publicKey with
  | some key =>
    match key.gasKeyInfo with
    | some info => deleteGasKey config accountId e account result publicKey key info
    | none => .ok (result, deleteRegularKey config e account publicKey key)
  | none => .ok (result.reject (.deleteKeyDoesNotExist accountId publicKey), e, account)

def addKeyStorage (account : Account) (cost : StorageUsage) : Except RuntimeError Account := do
  let storageUsage ← okOr (checkedAdd 64 account.storageUsage cost)
    (.storageError (.storageUsageOverflow accountId))
  .ok { account with storageUsage }

def addGasKey (e : Entry) (account : Account) (publicKey : PublicKey) (key : AccessKey)
    (info : GasKeyInfo) (blockHeight : BlockHeight) : Except RuntimeError (Entry × Account) := do
  -- The nonce on the key of a gas key is not used.
  let key := key.setNonce 0
  let e := setGasKeyNonces (e.setAccessKey publicKey key) publicKey info.numNonces
    (some (initialNonceValue blockHeight))
  let account ← addKeyStorage accountId account
    (gasKeyStorageCost config publicKey key info.numNonces)
  .ok (e, account)

def addRegularKey (e : Entry) (account : Account) (publicKey : PublicKey) (key : AccessKey)
    (blockHeight : BlockHeight) : Except RuntimeError (Entry × Account) := do
  let key := key.setNonce (initialNonceValue blockHeight)
  let account ← addKeyStorage accountId account (accessKeyStorageUsage config publicKey key)
  .ok (e.setAccessKey publicKey key, account)

def addNewKey (e : Entry) (account : Account) (publicKey : PublicKey) (key : AccessKey)
    (blockHeight : BlockHeight) : Except RuntimeError (Entry × Account) :=
  match key.gasKeyInfo with
  | some info => addGasKey config accountId e account publicKey key info blockHeight
  | none => addRegularKey config accountId e account publicKey key blockHeight

def actionAddKey (e : Entry) (account : Account) (result : ActionResult)
    (publicKey : PublicKey) (key : AccessKey) (blockHeight : BlockHeight) :
    Except RuntimeError (ActionResult × Entry × Account) :=
  if (e.getAccessKey publicKey).isSome then
    .ok (result.reject (.addKeyAlreadyExists accountId publicKey), e, account)
  else do
    let added ← addNewKey config accountId e account publicKey key blockHeight
    .ok (result, added)

def actionTransferToGasKey (e : Entry) (result : ActionResult) (publicKey : PublicKey)
    (deposit : Balance) : Except RuntimeError (ActionResult × Entry) :=
  match e.getAccessKey publicKey with
  | none => .ok (result.reject (.gasKeyDoesNotExist accountId publicKey), e)
  | some key =>
    match key.gasKeyInfo with
    | none => .ok (result.reject (.gasKeyDoesNotExist accountId publicKey), e)
    | some info => do
      let balance ← okOr (checkedAdd 128 info.balance deposit)
        (.storageError (.accountBalanceOverflow accountId))
      .ok (result, e.setAccessKey publicKey (key.setGasKeyBalance balance))

def actionWithdrawFromGasKey (e : Entry) (account : Account) (result : ActionResult)
    (publicKey : PublicKey) (amount : Balance) :
    Except RuntimeError (ActionResult × Entry × Account) :=
  match e.getAccessKey publicKey with
  | none => .ok (result.reject (.gasKeyDoesNotExist accountId publicKey), e, account)
  | some key =>
    match key.gasKeyInfo with
    | none => .ok (result.reject (.gasKeyDoesNotExist accountId publicKey), e, account)
    | some info =>
      match checkedSub info.balance amount with
      | none =>
        .ok (result.reject
          (.insufficientGasKeyBalance accountId publicKey info.balance amount), e, account)
      | some balance => do
        let newAmount ← okOr (checkedAdd 128 account.amount amount)
          (.storageError (.accountBalanceOverflow accountId))
        .ok (result, e.setAccessKey publicKey (key.setGasKeyBalance balance),
          { account with amount := newAmount })

end Actions

end BitInfinity
