import BitInfinity.Runtime.Verifier

/-!
# Processing the transactions of a chunk

The sequential loop of `process_transactions`.  It reads signers from a cache that is filled
before the loop, writes to the trie, and commits the trie after each transaction that was
charged.  How each transaction ended is logged in order; the execution outcomes of the chunk
are the part of the log that the protocol registers.
-/

namespace BitInfinity

open Foundation

/-! ## State of the loop -/

structure TxCache where
  accounts : AccountId → Option Account
  accessKeys : AccountId → PublicKey → Option AccessKey
  gasKeyNonces : AccountId → PublicKey → NonceIndex → Option Nonce

namespace TxCache

def setAccount (c : TxCache) (id : AccountId) (account : Account) : TxCache :=
  { c with accounts := fun a => if a = id then some account else c.accounts a }

def setAccessKey (c : TxCache) (id : AccountId) (publicKey : PublicKey)
    (key : Option AccessKey) : TxCache :=
  { c with accessKeys := fun a pk =>
      if a = id ∧ pk = publicKey then key else c.accessKeys a pk }

def setGasKeyNonce (c : TxCache) (id : AccountId) (publicKey : PublicKey) (index : NonceIndex)
    (nonce : Nonce) : TxCache :=
  { c with gasKeyNonces := fun a pk i =>
      if a = id ∧ pk = publicKey ∧ i = index then some nonce else c.gasKeyNonces a pk i }

def prefetch {E : Externals} (t : Trie E) : TxCache where
  accounts := t.getAccount
  accessKeys := t.getAccessKey
  gasKeyNonces := t.getGasKeyNonce

end TxCache

/-- How a transaction ended.  A dropped transaction has no outcome at all. -/
inductive TransactionEnd
  | failed (error : InvalidTxError)
  | depositFailed (error : InvalidTxError) (gasBurnt : Gas) (tokensBurnt : Balance)
  | success (receiptId : CryptoHash) (gasBurnt : Gas) (tokensBurnt : Balance)
  | dropped
  deriving DecidableEq, Repr

structure ProcessingState (E : Externals) where
  /-- The trie with all changes, and the trie at the last commit. -/
  trie : Trie E
  committed : Trie E
  cache : TxCache
  log : List (SignedTransaction × TransactionEnd)
  localReceipts : List Receipt
  forwardedReceipts : List Receipt
  txBurntAmount : Balance
  totalGas : Gas

inductive ExecutionStatus
  | successReceiptId (id : CryptoHash)
  | failure (error : InvalidTxError)
  deriving DecidableEq, Repr

structure ExecutionOutcome where
  id : CryptoHash
  status : ExecutionStatus
  gasBurnt : Gas
  tokensBurnt : Balance
  executorId : AccountId
  deriving DecidableEq, Repr

def registeredOutcome (E : Externals) (version : ProtocolVersion)
    (tx : SignedTransaction) (fate : TransactionEnd) : Option ExecutionOutcome :=
  let outcome := fun status gasBurnt tokensBurnt =>
    ({ id := E.transactionHash tx.transaction, status, gasBurnt, tokensBurnt,
       executorId := tx.transaction.signerId } : ExecutionOutcome)
  match fate with
  | .failed error =>
    if ProtocolFeature.invalidTxGenerateOutcomes.enabled version then
      some (outcome (.failure error) 0 0)
    else none
  | .depositFailed error gas tokens => some (outcome (.failure error) gas tokens)
  | .success id gas tokens => some (outcome (.successReceiptId id) gas tokens)
  | .dropped => none

namespace ProcessingState

variable {E : Externals}

def outcomes (p : ProcessingState E) (version : ProtocolVersion) : List ExecutionOutcome :=
  p.log.filterMap fun entry => registeredOutcome E version entry.1 entry.2

def finishWith (p : ProcessingState E) (tx : SignedTransaction) (fate : TransactionEnd) :
    ProcessingState E :=
  { p with log := p.log ++ [(tx, fate)] }

def fail (p : ProcessingState E) (tx : SignedTransaction) (error : InvalidTxError) :
    ProcessingState E :=
  p.finishWith tx (.failed error)

def start (t : Trie E) : ProcessingState E where
  trie := t
  committed := t
  cache := .prefetch t
  log := []
  localReceipts := []
  forwardedReceipts := []
  txBurntAmount := 0
  totalGas := 0

end ProcessingState

/-! ## The steps for one transaction -/

section Steps

variable {E : Externals} (as : ApplyState)

def validationError (E : Externals) (as : ApplyState) (tx : SignedTransaction)
    (nonExpired : Bool) : Option InvalidTxError :=
  if !nonExpired then some .expired
  else
    match validateTransaction E as.config tx as.protocolVersion with
    | .error e => some e
    | .ok () => none

def autoRegister (t : Trie E) (tx : SignedTransaction) : Except InvalidTxError Bool × Trie E :=
  maybeAutoRegisterBitcoinAccessKey t tx.transaction.signerId tx.transaction.publicKey
    tx.signature (E.transactionHash tx.transaction) as.blockHeight tx.transaction.nonce.nonce

/-- A registration attempt: its answer, with the cache reloaded when it succeeded. -/
def attemptRegistration (p : ProcessingState E) (tx : SignedTransaction) :
    Except InvalidTxError Bool × ProcessingState E :=
  let signerId := tx.transaction.signerId
  let publicKey := tx.transaction.publicKey
  let (answer, trie) := autoRegister as p.trie tx
  match answer with
  | .ok true =>
    (answer, { p with
      trie
      cache := p.cache.setAccessKey signerId publicKey (trie.getAccessKey signerId publicKey) })
  | _ => (answer, { p with trie })

def recoverAccessKey (p : ProcessingState E) (tx : SignedTransaction) : ProcessingState E :=
  if isBitcoinAddress E.toCrypto tx.transaction.signerId &&
      (p.cache.accessKeys tx.transaction.signerId tx.transaction.publicKey).isNone then
    (attemptRegistration as p tx).2
  else
    p

/-- The access key lookup, with a second registration attempt for Bitcoin accounts. -/
def loadAccessKey (p : ProcessingState E) (tx : SignedTransaction) :
    Except InvalidTxError AccessKey × ProcessingState E :=
  let signerId := tx.transaction.signerId
  let publicKey := tx.transaction.publicKey
  let notFound : InvalidTxError := .invalidAccessKeyError (.accessKeyNotFound signerId publicKey)
  match p.cache.accessKeys signerId publicKey with
  | some key => (.ok key, p)
  | none =>
    if isBitcoinAddress E.toCrypto signerId then
      let (answer, p) := attemptRegistration as p tx
      match answer with
      | .ok true => (okOr (p.cache.accessKeys signerId publicKey) notFound, p)
      | .ok false => (.error notFound, p)
      | .error e => (.error e, p)
    else
      (.error notFound, p)

def transactionVerdict (cache : TxCache) (account : Account) (key : AccessKey)
    (tx : Transaction) (cost : TransactionCost) : TxVerdict × AccessKey :=
  match tx.nonce.nonceIndex with
  | some nonceIndex =>
    match cache.gasKeyNonces tx.signerId tx.publicKey nonceIndex with
    | none =>
      (.failed (.invalidNonceIndex (some nonceIndex)
        ((key.gasKeyInfo.map GasKeyInfo.numNonces).getD 0)), key)
    | some currentNonce =>
      (verifyAndChargeGasKeyTxEphemeral as.config account key currentNonce tx nonceIndex
        cost (some as.blockHeight), key)
  | none =>
    verifyAndChargeTxEphemeral as.config account key tx cost (some as.blockHeight)
      as.protocolVersion

def receiptFromTx (E : Externals) (as : ApplyState) (tx : Transaction)
    (result : VerificationResult) : Receipt where
  predecessorId := tx.signerId
  receiverId := tx.receiverId
  receiptId := E.createReceiptIdFromTransaction (E.transactionHash tx) as.blockHeight
  receipt := .action
    { signerId := tx.signerId
      refundTo := none
      signerPublicKey := tx.publicKey
      gasPrice := result.receiptGasPrice
      outputDataReceivers := []
      inputDataIds := []
      actions := tx.actions }

def emitReceipt (p : ProcessingState E) (receipt : Receipt) : ProcessingState E :=
  if receipt.receiverId = receipt.predecessorId then
    { p with localReceipts := p.localReceipts ++ [receipt] }
  else
    { p with forwardedReceipts := p.forwardedReceipts ++ [receipt] }

def applyCharge (p : ProcessingState E) (tx : Transaction) (account : Account)
    (key : AccessKey) (result : VerificationResult) : ProcessingState E :=
  let account := result.applyAccount account
  let key := result.applyAccessKey key
  let trie := p.trie.setAccount tx.signerId account
  let cache := p.cache.setAccount tx.signerId account
  let (trie, cache) :=
    match result.gasKeyNonceUpdate with
    | some (index, nonce) =>
      (trie.setGasKeyNonce tx.signerId tx.publicKey index nonce,
        cache.setGasKeyNonce tx.signerId tx.publicKey index nonce)
    | none => (trie, cache)
  let trie := trie.setAccessKey tx.signerId tx.publicKey key
  { p with
    trie
    committed := trie
    cache := cache.setAccessKey tx.signerId tx.publicKey (some key) }

/-- The end of the loop body: statistics, then the charge.  When the burnt amount of the chunk
overflows, the transaction is dropped before its charge is written. -/
def settle (p : ProcessingState E) (tx : SignedTransaction) (account : Account)
    (key : AccessKey) (result : VerificationResult) (gasBurnt : Gas) (tokensBurnt : Balance)
    (fate : TransactionEnd) : Except RuntimeError (ProcessingState E) :=
  match safeAddBalance p.txBurntAmount tokensBurnt with
  | .error _ => .ok (p.finishWith tx .dropped)
  | .ok txBurntAmount => do
    let totalGas ← okOr (checkedAdd 64 p.totalGas gasBurnt)
      (.unexpectedIntegerOverflow "TotalResourceGuard::add")
    let p := { p with txBurntAmount, totalGas }
    .ok ((applyCharge p tx.transaction account key result).finishWith tx fate)

/-- The Patoshi guard, with the record to be written when the unlock is scheduled. -/
def patoshiGuard (as : ApplyState) (tx : Transaction) (record : PatoshiRecord)
    (postTxTotalBalance : Balance) : Except InvalidTxError (Option PatoshiRecord) := do
  validateLockedPatoshiTransaction tx.signerId tx.receiverId tx.actions postTxTotalBalance
    as.epochHeight as.protocolVersion record
  .ok (maybeSchedulePatoshiUnlock record tx.receiverId tx.actions as.epochHeight)

def guardTransaction (t : Trie E) (tx : Transaction) (account : Account)
    (result : VerificationResult) :
    Except RuntimeError (Except InvalidTxError (Option PatoshiRecord)) := do
  match ← (getPatoshiRecord t tx.signerId).mapError .storageError with
  | none => .ok (.ok none)
  | some record => do
    let postTxTotalBalance ← okOr (checkedAdd 128 result.newAccountAmount account.locked)
      (.unexpectedIntegerOverflow "IntegerOverflowError")
    .ok (patoshiGuard as tx record postTxTotalBalance)

def scheduleUnlock (p : ProcessingState E) (id : AccountId) :
    Option PatoshiRecord → ProcessingState E
  | some record => { p with trie := setPatoshiRecord p.trie id record }
  | none => p

def acceptTransaction (p : ProcessingState E) (tx : SignedTransaction) (account : Account)
    (key : AccessKey) (result : VerificationResult) :
    Except RuntimeError (ProcessingState E) :=
  let receipt := receiptFromTx E as tx.transaction result
  settle (emitReceipt p receipt) tx account key result result.gasBurnt result.burntAmount
    (.success receipt.receiptId result.gasBurnt result.burntAmount)

def applyVerdict (p : ProcessingState E) (tx : SignedTransaction) (account : Account)
    (cost : TransactionCost) (verdict : TxVerdict) (key : AccessKey) :
    Except RuntimeError (ProcessingState E) :=
  match verdict with
  | .failed e => .ok (p.fail tx e)
  | .depositFailed result error => do
    let totalGas ← okOr (checkedAdd 64 cost.gasBurnt cost.gasRemaining)
      (.unexpectedIntegerOverflow "IntegerOverflowError")
    settle p tx account key result totalGas cost.gasCost
      (.depositFailed error totalGas cost.gasCost)
  | .success result => do
    match ← guardTransaction as p.trie tx.transaction account result with
    | .error e => .ok (p.fail tx e)
    | .ok scheduled =>
      acceptTransaction as (scheduleUnlock p tx.transaction.signerId scheduled) tx account
        key result

def chargeTransaction (p : ProcessingState E) (tx : SignedTransaction) (account : Account)
    (cost : TransactionCost) : Except RuntimeError (ProcessingState E) :=
  let (key, p) := loadAccessKey as (recoverAccessKey as p tx) tx
  match key with
  | .error e => .ok (p.fail tx e)
  | .ok key =>
    let (verdict, key) := transactionVerdict as p.cache account key tx.transaction cost
    applyVerdict as p tx account cost verdict key

def processTransaction (p : ProcessingState E) (item : SignedTransaction × Bool) :
    Except RuntimeError (ProcessingState E) :=
  let (tx, nonExpired) := item
  match validationError E as tx nonExpired with
  | some e => .ok (p.fail tx e)
  | none =>
    match txCost E.toCrypto as.config tx.transaction as.gasPrice with
    | .error _ => .ok (p.fail tx .costOverflow)
    | .ok cost =>
      match p.cache.accounts tx.transaction.signerId with
      | none => .ok (p.fail tx (.invalidSignerId tx.transaction.signerId))
      | some account => chargeTransaction as p tx account cost

/-- The transactions come with a flag that tells which have not expired. -/
def processTransactions (t : Trie E) (txs : List (SignedTransaction × Bool)) :
    Except RuntimeError (ProcessingState E) :=
  txs.foldlM (processTransaction as) (.start t)

end Steps

end BitInfinity
