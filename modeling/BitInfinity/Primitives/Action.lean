import BitInfinity.Primitives.Account

/-!
# Actions, transactions and receipts

The data that moves through the runtime.  A delegate action carries actions that are not
delegate actions themselves; the two types make a nested one impossible to write down.
-/

namespace BitInfinity

inductive GlobalContractDeployMode
  | codeHash
  | accountId
  deriving DecidableEq, Repr

inductive GlobalContractIdentifier
  | codeHash (hash : CryptoHash)
  | accountId (id : AccountId)
  deriving DecidableEq, Repr

structure DeterministicAccountStateInit where
  code : GlobalContractIdentifier
  data : List (Bytes × Bytes)
  deriving DecidableEq, Repr

structure FunctionCallAction where
  methodName : String
  args : Bytes
  gas : Gas
  deposit : Balance
  deriving DecidableEq, Repr

/-- The actions that a delegate action may carry. -/
inductive NonDelegateAction
  | createAccount
  | deployContract (code : Bytes)
  | functionCall (call : FunctionCallAction)
  | transfer (deposit : Balance)
  | stake (stake : Balance) (publicKey : PublicKey)
  | addKey (publicKey : PublicKey) (accessKey : AccessKey)
  | deleteKey (publicKey : PublicKey)
  | deleteAccount (beneficiaryId : AccountId)
  | deployGlobalContract (code : Bytes) (deployMode : GlobalContractDeployMode)
  | useGlobalContract (contractIdentifier : GlobalContractIdentifier)
  | deterministicStateInit (stateInit : DeterministicAccountStateInit) (deposit : Balance)
  | transferToGasKey (publicKey : PublicKey) (deposit : Balance)
  | withdrawFromGasKey (publicKey : PublicKey) (amount : Balance)
  deriving DecidableEq, Repr

structure DelegateAction where
  senderId : AccountId
  receiverId : AccountId
  actions : List NonDelegateAction
  nonce : Nonce
  maxBlockHeight : BlockHeight
  publicKey : PublicKey
  deriving DecidableEq, Repr

structure SignedDelegateAction where
  delegateAction : DelegateAction
  signature : Signature
  deriving DecidableEq, Repr

inductive Action
  | basic (action : NonDelegateAction)
  | delegate (signed : SignedDelegateAction)
  deriving DecidableEq, Repr

/-! ## Transactions -/

structure TransactionNonce where
  nonce : Nonce
  nonceIndex : Option NonceIndex
  deriving DecidableEq, Repr

inductive TransactionVersion
  | v0
  | v1
  deriving DecidableEq, Repr

structure Transaction where
  version : TransactionVersion
  signerId : AccountId
  publicKey : PublicKey
  nonce : TransactionNonce
  receiverId : AccountId
  blockHash : CryptoHash
  actions : List Action
  /-- The first version of transactions has no nonce index. -/
  index_none : version = .v0 → nonce.nonceIndex = none
  deriving DecidableEq, Repr

structure SignedTransaction where
  transaction : Transaction
  signature : Signature
  deriving DecidableEq, Repr

/-! ## Receipts -/

structure DataReceiver where
  dataId : CryptoHash
  receiverId : AccountId
  deriving DecidableEq, Repr

structure ActionReceipt where
  signerId : AccountId
  refundTo : Option AccountId
  signerPublicKey : PublicKey
  gasPrice : Balance
  outputDataReceivers : List DataReceiver
  inputDataIds : List CryptoHash
  actions : List Action
  deriving DecidableEq, Repr

structure DataReceipt where
  dataId : CryptoHash
  data : Option Bytes
  deriving DecidableEq, Repr

structure GlobalContractDistributionReceipt where
  id : GlobalContractIdentifier
  nonce : Nat
  code : Bytes
  deriving DecidableEq, Repr

inductive ReceiptEnum
  | action (receipt : ActionReceipt)
  | data (receipt : DataReceipt)
  | promiseYield (receipt : ActionReceipt)
  | promiseResume (receipt : DataReceipt)
  | globalContractDistribution (receipt : GlobalContractDistributionReceipt)
  deriving DecidableEq, Repr

structure Receipt where
  predecessorId : AccountId
  receiverId : AccountId
  receiptId : CryptoHash
  receipt : ReceiptEnum
  deriving DecidableEq, Repr

namespace Receipt

def systemId : AccountId := "system"

def defaultHash : CryptoHash := List.replicate 32 0

def emptyKey : PublicKey := .ed25519 ⟨List.replicate 32 0, rfl⟩

/-- A transfer from the system account; the signer decides whether it is a gas refund. -/
def newRefund (receiverId : AccountId) (refund : Balance) (signerId : AccountId)
    (signerPublicKey : PublicKey) : Receipt where
  predecessorId := systemId
  receiverId := receiverId
  receiptId := defaultHash
  receipt := .action
    { signerId
      refundTo := none
      signerPublicKey
      gasPrice := 0
      outputDataReceivers := []
      inputDataIds := []
      actions := [.basic (.transfer refund)] }

def newBalanceRefund (receiverId : AccountId) (refund : Balance) : Receipt :=
  newRefund receiverId refund systemId emptyKey

def newGasRefund (receiverId : AccountId) (refund : Balance) (publicKey : PublicKey) : Receipt :=
  newRefund receiverId refund receiverId publicKey

def newGlobalContractDistribution (predecessorId : AccountId)
    (receipt : GlobalContractDistributionReceipt) : Receipt where
  predecessorId := predecessorId
  receiverId := systemId
  receiptId := defaultHash
  receipt := .globalContractDistribution receipt

end Receipt

def Receipt.actionReceipt? (receipt : Receipt) : Option ActionReceipt :=
  match receipt.receipt with
  | .action r => some r
  | .promiseYield r => some r
  | _ => none

/-! ## Serialised forms

Hashes and sizes of whole transactions, receipts and delegate actions.  Their byte layouts
play no role for the runtime beyond these values. -/

structure Externals extends Crypto where
  transactionHash : Transaction → CryptoHash
  transactionSize : SignedTransaction → Nat
  receiptSize : Receipt → Nat
  delegateActionHash : DelegateAction → CryptoHash
  createReceiptIdFromTransaction : CryptoHash → BlockHeight → CryptoHash
  createReceiptIdFromReceiptId : CryptoHash → BlockHeight → Nat → CryptoHash
  /-- The key whose hexadecimal text is the account id. -/
  publicKeyFromNearImplicitAccount : AccountId → PublicKey
  /-- The code stored on a new Ethereum account in place of the wallet contract. -/
  walletContractMagicBytes : Bytes

def Externals.sample : Externals where
  toCrypto := .sample
  transactionHash _ := List.replicate 32 0
  transactionSize _ := 0
  receiptSize _ := 0
  delegateActionHash _ := List.replicate 32 0
  createReceiptIdFromTransaction _ height := List.replicate 32 (UInt8.ofNat height)
  createReceiptIdFromReceiptId _ height index :=
    UInt8.ofNat index :: List.replicate 31 (UInt8.ofNat height)
  publicKeyFromNearImplicitAccount _ := Receipt.emptyKey
  walletContractMagicBytes := []

end BitInfinity
